import StepRunner.Proofs.Files.Tree

/-!
# Room for a folder's files

When the operations on a tree succeed. A path that leads to a folder leads on to every name in it that
is a name of a file (`find_child`); below a place where there is nothing, no path leads anywhere
(`find_child_of_absent`). A folder that can be made is there afterwards (`find_made`), and a folder in it
is made after it (`makeFolders_child_eq`, `makeFolders_child`).
-/

namespace StepRunner.Files

variable {t t' : Tree} {p q folder : Place} {c : Content} {e : Entry} {names more : List String}
  {path : Path} {name : String}

/-! ## 1. Names -/

/-- The name of a file: it does not lead upwards, is not too long, and has no zero character. -/
structure IsName (name : String) : Prop where
  not_up : name ≠ ".."
  fits : name.utf8ByteSize ≤ nameLimit
  no_zero : Char.ofNat 0 ∉ name.toList

theorem mem_joinWith {d : Char} {sep : List Char} {texts : List (List Char)} (hd : d ∉ sep) :
    d ∈ Text.joinWith sep texts ↔ ∃ x ∈ texts, d ∈ x := by
  induction texts with
  | nil => simp [Text.joinWith]
  | cons x texts ih =>
      cases texts with
      | nil => simp [Text.joinWith]
      | cons y texts =>
          rw [Text.joinWith, List.mem_append, List.mem_append, ih]
          · simp [hd]
          · simp

/-- Where the zero character of a path's text comes from. -/
theorem hasZero_iff (path : Path) : path.hasZero = true ↔
    Char.ofNat 0 ∈ path.root.toList ∨ ∃ part ∈ path.parts, Char.ofNat 0 ∈ part.toList := by
  have hjoin : Char.ofNat 0 ∈ Path.joinParts path.parts ↔
      ∃ part ∈ path.parts, Char.ofNat 0 ∈ part.toList := by
    rw [Path.joinParts, mem_joinWith (by decide)]
    simp
  rw [Path.hasZero, List.contains_iff_mem, ← hjoin]
  unfold Path.text
  split
  · next h =>
      rw [Bool.and_eq_true, beq_iff_eq, List.isEmpty_iff] at h
      rw [h.1, h.2]
      decide
  · rw [String.toList_append, List.mem_append, String.toList_ofList]

theorem no_zero_child (hp : path.hasZero = false) (hn : Char.ofNat 0 ∉ name.toList) :
    (path.child name).hasZero = false := by
  rw [← Bool.not_eq_true, hasZero_iff] at hp ⊢
  rintro (h | ⟨part, hm, h⟩)
  · exact hp (.inl h)
  · rcases List.mem_append.mp hm with hm | hm
    · exact hp (.inr ⟨part, hm, h⟩)
    · rw [List.mem_singleton.mp hm] at h
      exact hn h

/-! ## 2. Walking on -/

theorem walk_append_of_folder (h : walk t folder names = .ok (p, .folder)) :
    walk t folder (names ++ more) = walk t p more := by
  induction names generalizing folder with
  | nil =>
      obtain ⟨rfl, -⟩ := Prod.mk.inj (Except.ok.inj h)
      rfl
  | cons name rest ih =>
      rw [List.cons_append]
      rw [walk.eq_2] at h ⊢
      split at h
      · cases h
      · next hlong =>
          rw [if_neg hlong]
          dsimp only at h ⊢
          generalize (if name = ".." then folder.dropLast else folder ++ [name]) = next at h ⊢
          split at h
          · exact ih h
          · split at h
            · cases h
            · cases h
          · split at h
            · cases h
            · cases h

/-- Nothing is where the path leads to, or a folder above it is missing. -/
def Absent (t : Tree) (path : Path) : Prop :=
  path.hasZero = false ∧
    ((∃ p, walk t [] path.parts = .ok (p, .nothing)) ∨ walk t [] path.parts = .error .missing)

theorem walk_append_of_absent (hmore : more ≠ [])
    (h : (∃ p, walk t folder names = .ok (p, .nothing)) ∨ walk t folder names = .error .missing) :
    walk t folder (names ++ more) = .error .missing := by
  induction names generalizing folder with
  | nil => rcases h with ⟨p, h⟩ | h <;> cases h
  | cons name rest ih =>
      rw [List.cons_append]
      rw [walk.eq_2] at h ⊢
      split at h
      · rcases h with ⟨p, h⟩ | h <;> cases h
      · next hlong =>
          rw [if_neg hlong]
          dsimp only at h ⊢
          generalize (if name = ".." then folder.dropLast else folder ++ [name]) = next at h ⊢
          split at h
          · exact ih h
          · split at h <;> rcases h with ⟨p, h⟩ | h <;> cases h
          · rw [if_neg (by simp [hmore])]

/-- **A name in a folder** leads to its place. -/
theorem find_child (h : find t path = .ok (p, .folder)) (hn : IsName name) :
    find t (path.child name) = .ok (p ++ [name], t.entry (p ++ [name])) := by
  rw [find_eq_ok_iff] at h ⊢
  refine ⟨no_zero_child h.1 hn.no_zero, ?_⟩
  show walk t [] (path.parts ++ [name]) = _
  rw [walk_append_of_folder h.2]
  unfold walk
  rw [if_neg (Nat.not_lt.mpr hn.fits), if_neg hn.not_up]
  dsimp only
  cases t.entry (p ++ [name]) <;> rfl

/-- **Below nothing** no name leads anywhere. -/
theorem find_child_of_absent (h : Absent t path) (hzero : (path.child name).hasZero = false) :
    find t (path.child name) = .error (.path .missing (path.child name).text) := by
  have hwalk : walk t [] (path.child name).parts = .error .missing :=
    walk_append_of_absent (List.cons_ne_nil name []) h.2
  unfold find
  rw [hzero, hwalk]
  rfl

theorem absent_of_find (h : find t path = .ok (p, .nothing)) : Absent t path := by
  rw [find_eq_ok_iff] at h
  exact ⟨h.1, .inl ⟨p, h.2⟩⟩

theorem absent_child (h : Absent t path) (hn : Char.ofNat 0 ∉ name.toList) : Absent t (path.child name) :=
  ⟨no_zero_child h.1 hn, .inr (walk_append_of_absent (List.cons_ne_nil name []) h.2)⟩

theorem exists?_of_absent (h : Absent t path) : exists? t path = .ok false := by
  obtain ⟨hzero, ⟨p, hw⟩ | hw⟩ := h
  · rw [exists?, find_eq_ok_iff.mpr ⟨hzero, hw⟩]
  · unfold exists? find
    rw [hzero, hw]
    rfl

/-! ## 3. Making folders -/

theorem entry_addFolder_self : (t.addFolder p).entry p = .folder :=
  Tree.entry_eq_folder_iff.mpr (.inr (List.mem_append_right _ (List.mem_singleton_self p)))

/-- A folder that was made is there. -/
theorem find_of_makeFolder (h : makeFolder t path = .ok t') : ∃ p, find t' path = .ok (p, .folder) := by
  unfold makeFolder at h
  split at h
  · cases h
  · next p hf =>
      cases h
      exact ⟨p, hf⟩
  · cases h
  · next p hf =>
      cases h
      have hgrow := (Tree.keeps_addFolder [] (entry_of_find hf).symm).folders
      exact ⟨p, by rw [find_of_folders hgrow hf, entry_addFolder_self]⟩

theorem find_of_makeFoldersFrom {fuel : Nat} (h : (makeFoldersFrom fuel t path).1 = .ok ()) :
    ∃ p, find (makeFoldersFrom fuel t path).2 path = .ok (p, .folder) := by
  cases fuel with
  | zero => cases h
  | succ fuel =>
      unfold makeFoldersFrom at h ⊢
      split at h
      · next hm => exact find_of_makeFolder hm
      · split at h
        · cases h
        · split at h
          · next hm => exact find_of_makeFolder hm
          · cases h
      · cases h

/-- **A folder that can be made** is there once it was made. -/
theorem find_made (h : (makeFolders t path).1 = .ok ()) :
    find (makeFolders t path).2 path = .ok (placeFrom [] path.parts, .folder) := by
  obtain ⟨p, hp⟩ := find_of_makeFoldersFrom h
  rw [← place_of_find hp]
  exact hp

/-- A folder that can be made is there, or nothing is in its place. -/
theorem folder_or_absent (h : (makeFolders t path).1 = .ok ()) :
    ((∃ p, find t path = .ok (p, .folder)) ∧ (makeFolders t path).2 = t) ∨ Absent t path := by
  unfold makeFolders makeFoldersFrom makeFolder at h ⊢
  cases hf : find t path with
  | ok found =>
      obtain ⟨p, e⟩ := found
      cases e with
      | folder => exact .inl ⟨⟨p, rfl⟩, rfl⟩
      | nothing => exact .inr (absent_of_find hf)
      | file c =>
          rw [hf] at h
          cases h
  | error f =>
      rw [hf] at h
      unfold find at hf
      split at hf
      · cases hf
        cases h
      · next hzero =>
          rw [Bool.not_eq_true] at hzero
          split at hf
          · cases hf
          · next cause hw =>
              cases hf
              -- every other cause stops the making
              cases cause
              · exact .inr ⟨hzero, .inr hw⟩
              all_goals cases h

/-- In a folder, a name of no file can be made a folder. -/
theorem makeFolder_child (h : find t path = .ok (p, .folder)) (hn : IsName name)
    (hfile : ∀ c, t.entry (p ++ [name]) ≠ .file c) :
    makeFolder t (path.child name) =
      .ok (if t.entry (p ++ [name]) = .folder then t else t.addFolder (p ++ [name])) := by
  unfold makeFolder
  rw [find_child h hn]
  cases he : t.entry (p ++ [name]) with
  | folder => rfl
  | file c => exact absurd he (hfile c)
  | nothing => rfl

theorem makeFolders_of_makeFolder (h : makeFolder t path = .ok t') :
    makeFolders t path = (.ok (), t') := by
  unfold makeFolders makeFoldersFrom
  rw [h]

/-- Only a missing folder makes others be made before. -/
theorem makeFolders_of_error {f : FileFault} (h : makeFolder t path = .error f) (hf : ∀ text, f ≠ .path .missing text) :
    makeFolders t path = (.error f, t) := by
  unfold makeFolders makeFoldersFrom
  rw [h]
  split
  · next h => cases h
  · next h =>
      cases h
      exact absurd rfl (hf _)
  · next h => rw [Except.error.inj h]

/-- In a folder that is there no folder is missing. -/
theorem makeFolder_child_ne_missing {text : String} (h : find t path = .ok (p, .folder)) :
    makeFolder t (path.child name) ≠ .error (.path .missing text) := by
  have hwalk : walk t [] (path.child name).parts = walk t p [name] :=
    walk_append_of_folder (find_eq_ok_iff.mp h).2
  unfold makeFolder find
  rw [hwalk, walk]
  cases (path.child name).hasZero with
  | true => exact nofun
  | false =>
      by_cases hlong : nameLimit < name.utf8ByteSize
      · rw [if_pos hlong]
        exact nofun
      · rw [if_neg hlong]
        dsimp only
        generalize (if name = ".." then p.dropLast else p ++ [name]) = next
        cases t.entry next <;> exact nofun

/-- **A folder in a folder that can be made** is made after it. -/
theorem makeFolders_child_eq (h : (makeFolders t path).1 = .ok ()) (hzero : (path.child name).hasZero = false) :
    makeFolders t (path.child name) = match makeFolder (makeFolders t path).2 (path.child name) with
      | .ok t' => (.ok (), t')
      | .error f => (.error f, (makeFolders t path).2) := by
  rcases folder_or_absent h with ⟨⟨p, hp⟩, e⟩ | ha
  · rw [e]
    cases hm : makeFolder t (path.child name) with
    | ok t' => exact makeFolders_of_makeFolder hm
    | error f => exact makeFolders_of_error hm fun text e => makeFolder_child_ne_missing hp (e ▸ hm)
  · have hparent : (path.child name).parent = path := by
      unfold Path.parent Path.child
      rw [List.dropLast_concat]
    have hlength : (path.child name).parts.length = path.parts.length + 1 := by simp [Path.child]
    have hfirst : makeFolder t (path.child name) =
        .error (.path .missing (path.child name).text) := by
      unfold makeFolder
      rw [find_child_of_absent ha hzero]
    have hroot : makeFoldersFrom (path.parts.length + 1) t path =
        (.ok (), (makeFolders t path).2) := Prod.ext h rfl
    rw [makeFolders, hlength, makeFoldersFrom, hfirst]
    rw [hparent]
    generalize makeFoldersFrom (path.parts.length + 1) t path = made at hroot ⊢
    subst hroot
    rfl

/-- A folder of a name that no file has is all that is new then. -/
theorem makeFolders_child (h : (makeFolders t path).1 = .ok ()) (hn : IsName name)
    (hfile : ∀ c, (makeFolders t path).2.entry (placeFrom [] path.parts ++ [name]) ≠ .file c) :
    makeFolders t (path.child name) = (.ok (),
      if (makeFolders t path).2.entry (placeFrom [] path.parts ++ [name]) = .folder then (makeFolders t path).2
      else (makeFolders t path).2.addFolder (placeFrom [] path.parts ++ [name])) := by
  have hzero := no_zero_child (find_eq_ok_iff.mp (find_made h)).1 hn.no_zero
  rw [makeFolders_child_eq h hzero, makeFolder_child (find_made h) hn hfile]

/-! ## 4. Files in a folder -/

namespace Tree

theorem entry_congr (hfolder : p ∈ t'.folders ↔ p ∈ t.folders)
    (hfile : t'.files.lookup p = t.files.lookup p) : t'.entry p = t.entry p := by
  unfold entry
  rw [hfile]
  simp [hfolder]

theorem entry_addFolder_of_ne (h : p ≠ q) : (t.addFolder q).entry p = t.entry p :=
  entry_congr (by simp [addFolder, h]) rfl

theorem entry_addFolder_unless :
    (if t.entry q = .folder then t else t.addFolder q).entry p = if p = q then .folder else t.entry p := by
  by_cases hp : p = q
  · rw [if_pos hp, hp]
    split
    · assumption
    · exact entry_addFolder_self
  · rw [if_neg hp]
    split
    · rfl
    · exact entry_addFolder_of_ne hp

theorem entry_addFile_of_ne (h : p ≠ q) : (t.addFile q c).entry p = t.entry p :=
  entry_congr Iff.rfl ((lookup_putFile t.files).trans (if_neg h))

theorem entry_dropFile_of_ne (h : p ≠ q) : (t.dropFile q).entry p = t.entry p :=
  entry_congr Iff.rfl ((lookup_dropFile t.files).trans (if_neg h))

theorem entry_dropFile_self (h : t.entry q ≠ .folder) : (t.dropFile q).entry q = .nothing := by
  have hfolder : ¬ (q = [] ∨ q ∈ t.folders) := mt entry_eq_folder_iff.mpr h
  exact entry_eq_nothing_iff.mpr ⟨hfolder, (lookup_dropFile t.files).trans (if_pos rfl)⟩

end Tree

theorem write_child (h : find t path = .ok (p, .folder)) (hn : IsName name)
    (hfree : t.entry (p ++ [name]) ≠ .folder) :
    write t (path.child name) c = .ok (t.addFile (p ++ [name]) c) := by
  unfold write
  rw [find_child h hn]
  cases he : t.entry (p ++ [name]) with
  | folder => exact absurd he hfree
  | file d => rfl
  | nothing => rfl

theorem move_child {name' : String} (h : find t path = .ok (p, .folder)) (hn : IsName name)
    (hn' : IsName name') (hfile : t.entry (p ++ [name]) = .file c)
    (hfree : t.entry (p ++ [name']) ≠ .folder) :
    move t (path.child name) (path.child name') =
      .ok ((t.dropFile (p ++ [name])).addFile (p ++ [name']) c) := by
  unfold move
  rw [find_child h hn, find_child h hn', hfile]
  cases he : t.entry (p ++ [name']) with
  | folder => exact absurd he hfree
  | file d => rfl
  | nothing => rfl

theorem move_child_of_folder {name' : String} (h : find t path = .ok (p, .folder)) (hn : IsName name)
    (hn' : IsName name') (hfile : t.entry (p ++ [name]) = .file c) (hfolder : t.entry (p ++ [name']) = .folder) :
    move t (path.child name) (path.child name') =
      .error (.move .isFolder (path.child name).text (path.child name').text) := by
  unfold move
  rw [find_child h hn, find_child h hn', hfile, hfolder]

end StepRunner.Files
