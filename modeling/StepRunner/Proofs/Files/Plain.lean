import StepRunner.Proofs.Files.Room

/-!
# Paths of names

In a closed tree a path of names leads where its names say, unless it is `Blocked` by a file on the way or at its end.

* `makeFolders_of_blocked`: then its folders cannot be made, and the tree stays as it is;
* `makeFolders_of_free`: else they can, and they are all that is new;
* `find_congr`: what a path finds is up to the places that it leads through;
* `exists?_below`: below a place without a folder nothing is found.
-/

namespace StepRunner.Files

variable {t t' : Tree} {p folder : Place} {c : Content} {names more : List String} {path : Path} {name : String}

/-- Every part of the path is the name of a file, and the zero character is not in its root mark. -/
structure IsPlain (path : Path) : Prop where
  names : ∀ part ∈ path.parts, IsName part
  root : Char.ofNat 0 ∉ path.root.toList

/-- A file stands at one of the places that the names lead through, or at the last. -/
def Blocked (t : Tree) (names : List String) : Prop := ∃ p c, p <+: names ∧ t.entry p = .file c

theorem IsPlain.no_zero (h : IsPlain path) : path.hasZero = false := by
  rw [← Bool.not_eq_true, hasZero_iff]
  rintro (hz | ⟨part, hm, hz⟩)
  · exact h.root hz
  · exact (h.names part hm).no_zero hz

theorem IsPlain.not_up (h : IsPlain path) : ".." ∉ path.parts := fun hm => (h.names _ hm).not_up rfl

theorem IsPlain.place (h : IsPlain path) : placeFrom [] path.parts = path.parts := placeFrom_of_no_dots h.not_up

theorem isPlain_child_iff : IsPlain (path.child name) ↔ IsPlain path ∧ IsName name := by
  refine ⟨fun h => ⟨⟨fun part hm => h.names part (List.mem_append_left _ hm), h.root⟩,
    h.names name (List.mem_append_right _ (List.mem_singleton_self name))⟩, fun ⟨h, hn⟩ => ⟨fun part hm => ?_, h.root⟩⟩
  rcases List.mem_append.mp hm with hm | hm
  · exact h.names part hm
  · rwa [List.mem_singleton.mp hm]

/-! ## 1. Walking along names -/

theorem walk_congr (hdots : ".." ∉ names) (h : ∀ p, p <+: names → t'.entry (folder ++ p) = t.entry (folder ++ p)) :
    walk t' folder names = walk t folder names := by
  induction names generalizing folder with
  | nil => rfl
  | cons name rest ih =>
      rw [List.mem_cons, not_or] at hdots
      have hnext : t'.entry (folder ++ [name]) = t.entry (folder ++ [name]) :=
        h [name] (List.cons_prefix_cons.mpr ⟨rfl, List.nil_prefix⟩)
      have hrest : walk t' (folder ++ [name]) rest = walk t (folder ++ [name]) rest := ih hdots.2 fun p hp => by
        rw [List.append_assoc]
        exact h (name :: p) (List.cons_prefix_cons.mpr ⟨rfl, hp⟩)
      rw [walk, walk]
      dsimp only
      rw [if_neg (Ne.symm hdots.1), hnext, hrest]

/-- **What a path finds** is up to what stands at the places that it leads through. -/
theorem find_congr (hdots : ".." ∉ path.parts) (h : ∀ p, p <+: path.parts → t'.entry p = t.entry p) :
    find t' path = find t path := by
  unfold find
  rw [show walk t' [] path.parts = walk t [] path.parts from walk_congr hdots h]

/-- In a closed tree names lead to what stands at their place. -/
theorem walk_of_entry (hc : t.Closed) (hnames : ∀ name ∈ names, IsName name) (hf : t.entry folder = .folder)
    (h : t.entry (folder ++ names) ≠ .nothing) :
    walk t folder names = .ok (folder ++ names, t.entry (folder ++ names)) := by
  induction names generalizing folder with
  | nil => rw [List.append_nil, hf, walk]
  | cons name rest ih =>
      rw [List.forall_mem_cons] at hnames
      rw [walk, if_neg (Nat.not_lt.mpr hnames.1.fits), if_neg hnames.1.not_up]
      dsimp only
      have hassoc : folder ++ name :: rest = (folder ++ [name]) ++ rest := List.append_cons ..
      rw [hassoc] at h ⊢
      by_cases hrest : rest = []
      · subst hrest
        rw [List.append_nil]
        cases t.entry (folder ++ [name]) <;> rfl
      · have hnext : t.entry (folder ++ [name]) = .folder := hc.folder_above hrest h
        rw [hnext]
        exact ih hnames.2 hnext h

/-- Where nothing but a folder would do, other things end a walk. -/
theorem walk_below (hnames : ∀ name ∈ names, IsName name) (hmore : more ≠ []) (hf : t.entry folder = .folder)
    (h : t.entry (folder ++ names) ≠ .folder) :
    walk t folder (names ++ more) = .error .missing ∨ walk t folder (names ++ more) = .error .notFolder := by
  induction names generalizing folder with
  | nil => exact absurd hf (by rwa [List.append_nil] at h)
  | cons name rest ih =>
      rw [List.forall_mem_cons] at hnames
      rw [List.cons_append, walk, if_neg (Nat.not_lt.mpr hnames.1.fits), if_neg hnames.1.not_up]
      dsimp only
      have hempty : ¬ (rest ++ more).isEmpty = true := by simp [hmore]
      cases hnext : t.entry (folder ++ [name]) with
      | folder => exact ih hnames.2 hnext (by rwa [List.append_cons] at h)
      | file c => exact .inr (if_neg hempty)
      | nothing => exact .inl (if_neg hempty)

/-- A file is no way further. -/
theorem walk_append_of_file (hmore : more ≠ []) (h : walk t folder names = .ok (p, .file c)) :
    walk t folder (names ++ more) = .error .notFolder := by
  induction names generalizing folder with
  | nil => cases h
  | cons name rest ih =>
      rw [List.cons_append]
      rw [walk.eq_2] at h ⊢
      split at h
      · cases h
      · next hlong =>
          rw [if_neg hlong]
          dsimp only at h ⊢
          generalize (if name = ".." then folder.dropLast else folder ++ [name]) = next at h ⊢
          split at h
          · exact ih h
          · rw [if_neg (by simp [hmore])]
          · split at h <;> cases h

/-! ## 2. What stands in the way -/

/-- **Below a place without a folder** nothing is found, and the walk does not get to names that are too long. -/
theorem exists?_below (hp : p <+: path.parts) (hne : p ≠ path.parts) (hnames : ∀ name ∈ p, IsName name)
    (h : t.entry p ≠ .folder) : exists? t path = .ok false := by
  obtain ⟨more, hmore⟩ := hp
  have hmore_ne : more ≠ [] := by
    rintro rfl
    exact hne (by rwa [List.append_nil] at hmore)
  unfold exists? find
  cases path.hasZero with
  | true => rfl
  | false =>
      rw [← hmore]
      rcases walk_below hnames hmore_ne (entry_top t) h with hw | hw <;> rw [hw] <;> rfl

/-- **A name that is too long** is found out in a folder that is there. -/
theorem find_of_long {path' : Path} (h : find t path = .ok (p, .folder)) (hlong : nameLimit < name.utf8ByteSize)
    (hparts : path'.parts = path.parts ++ name :: more) (hzero : path'.hasZero = false) :
    find t path' = .error (.path .nameTooLong path'.text) := by
  have hwalk : walk t [] path'.parts = .error .nameTooLong := by
    rw [hparts, walk_append_of_folder (find_eq_ok_iff.mp h).2, walk, if_pos hlong]
  unfold find
  rw [hzero, hwalk]
  rfl

/-- A path that a file blocks leads to it or breaks off. -/
theorem find_of_blocked (hc : t.Closed) (hzero : path.hasZero = false) (hp : p <+: path.parts)
    (hnames : ∀ name ∈ p, IsName name) (h : t.entry p = .file c) :
    find t path = .ok (p, .file c) ∨ find t path = .error (.path .notFolder path.text) := by
  have hw : walk t [] p = .ok (p, .file c) := by
    have hentry : t.entry ([] ++ p) = .file c := h
    rw [walk_of_entry hc hnames (entry_top t) (by rw [hentry]; exact nofun), hentry, List.nil_append]
  obtain ⟨more, hmore⟩ := hp
  by_cases hend : more = []
  · rw [hend, List.append_nil] at hmore
    exact .inl (find_eq_ok_iff.mpr ⟨hzero, hmore ▸ hw⟩)
  · refine .inr ?_
    unfold find
    rw [hzero, ← hmore, walk_append_of_file hend hw]
    rfl

/-- Where nothing is, no file is in the way. -/
theorem not_blocked_of_absent (hc : t.Closed) (hpath : IsPlain path) (h : Absent t path) : ¬ Blocked t path.parts := by
  rintro ⟨p, c, hp, hfile⟩
  have hfound := find_of_blocked hc h.1 hp (fun name hname => hpath.names name (hp.subset hname)) hfile
  unfold find at hfound
  obtain ⟨hzero, ⟨q, hw⟩ | hw⟩ := h <;> rw [hzero, hw] at hfound <;> rcases hfound with h | h <;> cases h

/-- **Where a file is in the way**, no folder is made. -/
theorem makeFolders_of_blocked (hc : t.Closed) (hzero : path.hasZero = false) (hp : p <+: path.parts)
    (hnames : ∀ name ∈ p, IsName name) (h : t.entry p = .file c) :
    ∃ cause, makeFolders t path = (.error (.path cause path.text), t) := by
  unfold makeFolders makeFoldersFrom makeFolder
  rcases find_of_blocked hc hzero hp hnames h with hfind | hfind
  · exact ⟨.exists, by rw [hfind]⟩
  · exact ⟨.notFolder, by rw [hfind]⟩

/-- **Where no file is in the way**, the folders of the path can be made, and nothing else changes. -/
theorem makeFolders_of_free (hpath : IsPlain path) (hfree : ¬ Blocked t path.parts) :
    (makeFolders t path).1 = .ok () ∧
      ∀ q, (makeFolders t path).2.entry q = if q <+: path.parts then .folder else t.entry q := by
  obtain ⟨root, names⟩ := path
  induction names using List.reverseRecOn with
  | nil =>
      have hfind : find t ⟨root, []⟩ = .ok ([], .folder) := find_eq_ok_iff.mpr ⟨hpath.no_zero, rfl⟩
      have hmake : makeFolders t ⟨root, []⟩ = (.ok (), t) := makeFolders_of_makeFolder (by rw [makeFolder, hfind])
      rw [hmake]
      refine ⟨rfl, fun q => ?_⟩
      split
      · next hq =>
          rw [List.prefix_nil.mp hq]
          rfl
      · rfl
  | append_singleton names name ih =>
      obtain ⟨hparent, hn⟩ : IsPlain ⟨root, names⟩ ∧ IsName name := isPlain_child_iff.mp hpath
      obtain ⟨hok, hentry⟩ := ih hparent fun ⟨p, c, hp, h⟩ => hfree ⟨p, c, hp.trans (List.prefix_append _ _), h⟩
      have hplace : placeFrom [] names = names := hparent.place
      have hfile (c : Content) : (makeFolders t ⟨root, names⟩).2.entry (placeFrom [] names ++ [name]) ≠ .file c := by
        rw [hplace, hentry]
        split
        · exact nofun
        · exact fun h => hfree ⟨_, c, List.prefix_rfl, h⟩
      have hmake : makeFolders t ⟨root, names ++ [name]⟩ = _ := makeFolders_child hok hn hfile
      rw [hplace] at hmake
      rw [hmake]
      refine ⟨rfl, fun q => ?_⟩
      rw [Tree.entry_addFolder_unless, hentry]
      by_cases hq : q = names ++ [name] <;> simp only [List.prefix_concat_iff, hq, true_or, false_or, if_true, if_false]

/-- A folder that is there need not be made. -/
theorem makeFolders_of_entry (hc : t.Closed) (hpath : IsPlain path) (h : t.entry path.parts = .folder) :
    makeFolders t path = (.ok (), t) := by
  have hthere : t.entry ([] ++ path.parts) = .folder := h
  have hw := walk_of_entry hc hpath.names (entry_top t) (by rw [hthere]; exact nofun)
  rw [hthere] at hw
  refine makeFolders_of_makeFolder ?_
  rw [makeFolder, find_eq_ok_iff.mpr ⟨hpath.no_zero, hw⟩]

end StepRunner.Files
