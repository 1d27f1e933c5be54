import Mathlib.Data.List.Induction
import StepRunner.Files.Tree
import StepRunner.Proofs.Tables

/-!
# What stays in a file tree

A walk along names leads to a place that depends on the names alone; the tree decides whether it gets
there. So a walk that arrives still arrives where the tree has grown: `find_of_folders`.

* `Tree.Keeps`: all folders stay, and at one place there is the same file as before, or none as before;
  making folders keeps every place, writing and moving keep all places but those of the files concerned;
* `Tree.Closed`: whatever stands at a place stands in a folder. In such a tree a file is found by every
  path without double dots that leads to its place: `find_of_closed`.
-/

namespace StepRunner.Files

variable {t t' : Tree} {p q folder : Place} {c : Content} {e : Entry} {names : List String}

/-! ## 1. Entries -/

namespace Tree

theorem entry_eq_folder_iff : t.entry p = .folder ↔ p = [] ∨ p ∈ t.folders := by
  unfold entry
  split
  · next h => simpa using h
  · next h =>
      have h' : ¬ (p = [] ∨ p ∈ t.folders) := by simpa using h
      simp only [h', iff_false]
      split <;> exact nofun

theorem entry_of_not_folder (h : ¬ (p = [] ∨ p ∈ t.folders)) :
    t.entry p = match t.files.lookup p with
      | some c => .file c
      | none => .nothing :=
  if_neg (by simpa using h)

theorem entry_eq_file_iff : t.entry p = .file c ↔
    ¬ (p = [] ∨ p ∈ t.folders) ∧ t.files.lookup p = some c := by
  by_cases h : p = [] ∨ p ∈ t.folders
  · rw [entry_eq_folder_iff.mpr h]
    simp [h]
  · rw [entry_of_not_folder h]
    cases t.files.lookup p <;> simp [h]

theorem entry_eq_nothing_iff : t.entry p = .nothing ↔
    ¬ (p = [] ∨ p ∈ t.folders) ∧ t.files.lookup p = none := by
  by_cases h : p = [] ∨ p ∈ t.folders
  · rw [entry_eq_folder_iff.mpr h]
    simp [h]
  · rw [entry_of_not_folder h]
    cases t.files.lookup p <;> simp [h]

theorem lookup_putFile (files : List (Place × Content)) :
    (putFile q c files).lookup p = if p = q then some c else files.lookup p :=
  lookup_of_put (putFile q c) rfl (fun _ _ _ => rfl) files p

theorem lookup_dropFile (files : List (Place × Content)) :
    (files.filter fun (r, _) => r != q).lookup p = if p = q then none else files.lookup p := by
  induction files with
  | nil => simp
  | cons f files ih =>
      obtain ⟨r, d⟩ := f
      by_cases hr : r = q
      · subst hr
        rw [List.filter_cons_of_neg (by simp), ih, lookup_cons_ite]
        by_cases hp : p = r <;> simp [hp]
      · rw [List.filter_cons_of_pos (by simpa using hr), lookup_cons_ite, ih, lookup_cons_ite]
        by_cases hp : p = r
        · subst hp
          simp [hr]
        · simp [hp]

/-! ## 2. What stays -/

/-- All folders stay, and at one place there is the same file as before, or none as before. -/
structure Keeps (p : Place) (t t' : Tree) : Prop where
  folders : ∀ q, t.entry q = .folder → t'.entry q = .folder
  file : ∀ c, t'.entry p = .file c ↔ t.entry p = .file c

theorem Keeps.refl (p : Place) (t : Tree) : Keeps p t t := ⟨fun _ h => h, fun _ => Iff.rfl⟩

theorem Keeps.trans {t'' : Tree} (h : Keeps p t t') (h' : Keeps p t' t'') : Keeps p t t'' :=
  ⟨fun q hq => h'.folders q (h.folders q hq), fun c => (h'.file c).trans (h.file c)⟩

theorem keeps_addFolder (p : Place) (h : t.entry q = .nothing) : Keeps p t (t.addFolder q) := by
  refine ⟨fun r hr => ?_, fun c => ?_⟩
  · rw [entry_eq_folder_iff] at hr ⊢
    exact hr.imp_right fun hm => List.mem_append_left _ hm
  · by_cases hp : p = q
    · subst hp
      have hfolder : (t.addFolder p).entry p = .folder :=
        entry_eq_folder_iff.mpr (.inr (List.mem_append_right _ (List.mem_singleton_self p)))
      rw [hfolder, h]
      simp
    · rw [entry_eq_file_iff, entry_eq_file_iff]
      simp [addFolder, hp]

theorem folder_addFile (h : t.entry p = .folder) : (t.addFile q c).entry p = .folder := by
  rw [entry_eq_folder_iff] at h ⊢
  exact h

theorem folder_dropFile (h : t.entry p = .folder) : (t.dropFile q).entry p = .folder := by
  rw [entry_eq_folder_iff] at h ⊢
  exact h

theorem entry_addFile_self (h : t.entry q ≠ .folder) : (t.addFile q c).entry q = .file c := by
  have hq : ¬ (q = [] ∨ q ∈ t.folders) := mt entry_eq_folder_iff.mpr h
  rw [entry_eq_file_iff]
  refine ⟨hq, ?_⟩
  simp [addFile, lookup_putFile]

theorem keeps_addFile (h : p ≠ q) : Keeps p t (t.addFile q c) := by
  refine ⟨fun _ => folder_addFile, fun d => ?_⟩
  rw [entry_eq_file_iff, entry_eq_file_iff]
  simp [addFile, lookup_putFile, h]

theorem keeps_dropFile (h : p ≠ q) : Keeps p t (t.dropFile q) := by
  refine ⟨fun _ => folder_dropFile, fun d => ?_⟩
  rw [entry_eq_file_iff, entry_eq_file_iff]
  simp [dropFile, lookup_dropFile, h]

/-! ## 3. Closed trees -/

/-- Whatever stands at a place stands in a folder. -/
def Closed (t : Tree) : Prop := ∀ p, t.entry p ≠ .nothing → t.entry p.dropLast = .folder

theorem closed_empty : Closed {} := by
  intro p h
  cases p with
  | nil => rfl
  | cons name p => exact absurd rfl h

/-- What is new in a tree in which all folders stay has been put into a folder. -/
theorem Closed.of_folders (hc : Closed t) (hg : ∀ q, t.entry q = .folder → t'.entry q = .folder)
    (h : ∀ p, t.entry p = .nothing → t'.entry p ≠ .nothing → t.entry p.dropLast = .folder) :
    Closed t' := by
  intro p hp
  refine hg _ ?_
  by_cases hn : t.entry p = .nothing
  · exact h p hn hp
  · exact hc p hn

theorem closed_addFolder (hc : Closed t) (hn : t.entry q = .nothing)
    (hq : t.entry q.dropLast = .folder) : Closed (t.addFolder q) := by
  refine hc.of_folders (keeps_addFolder q hn).folders fun p hp hp' => ?_
  by_cases hpq : p = q
  · rwa [hpq]
  · rw [entry_eq_nothing_iff] at hp
    exact absurd (entry_eq_nothing_iff.mpr (by simpa [addFolder, hpq] using hp)) hp'

theorem closed_addFile (hc : Closed t) (hq : t.entry q.dropLast = .folder) :
    Closed (t.addFile q c) := by
  refine hc.of_folders (fun _ => folder_addFile) fun p hp hp' => ?_
  by_cases hpq : p = q
  · rwa [hpq]
  · rw [entry_eq_nothing_iff] at hp
    refine (hp' (entry_eq_nothing_iff.mpr ⟨hp.1, ?_⟩)).elim
    rw [addFile, lookup_putFile, if_neg hpq]
    exact hp.2

theorem closed_dropFile (hc : Closed t) : Closed (t.dropFile q) := by
  refine hc.of_folders (fun _ => folder_dropFile) fun p hp hp' => ?_
  rw [entry_eq_nothing_iff] at hp
  refine (hp' (entry_eq_nothing_iff.mpr ⟨hp.1, ?_⟩)).elim
  rw [dropFile, lookup_dropFile, hp.2, ite_self]

/-- What is above something is a folder. -/
theorem Closed.folder_above (hc : Closed t) {more : List String} (hne : more ≠ [])
    (h : t.entry (p ++ more) ≠ .nothing) : t.entry p = .folder := by
  induction more using List.reverseRecOn with
  | nil => exact absurd rfl hne
  | append_singleton more name ih =>
      have hdrop := hc _ h
      rw [← List.append_assoc, List.dropLast_concat] at hdrop
      by_cases hmore : more = []
      · rwa [hmore, List.append_nil] at hdrop
      · exact ih hmore (by rw [hdrop]; exact nofun)

end Tree

open Files.Tree

/-! ## 4. Walking -/

/-- The place that names lead to from a folder. -/
def placeFrom (folder : Place) (names : List String) : Place :=
  names.foldl (fun folder name => if name = ".." then folder.dropLast else folder ++ [name]) folder

theorem placeFrom_append (names more : List String) :
    placeFrom folder (names ++ more) = placeFrom (placeFrom folder names) more := List.foldl_append

theorem placeFrom_of_no_dots (h : ".." ∉ names) : placeFrom folder names = folder ++ names := by
  induction names generalizing folder with
  | nil => exact (List.append_nil _).symm
  | cons name names ih =>
      rw [List.mem_cons, not_or] at h
      have hstep : placeFrom folder (name :: names) = placeFrom (folder ++ [name]) names := by
        unfold placeFrom
        rw [List.foldl_cons, if_neg (Ne.symm h.1)]
      rw [hstep, ih h.2, List.append_assoc]
      rfl

/-- A walk that arrives, arrives at the place of the names, also where the tree has grown. -/
theorem walk_of_folders (hg : ∀ q, t.entry q = .folder → t'.entry q = .folder)
    (hf : t.entry folder = .folder) (h : walk t folder names = .ok (p, e)) :
    walk t' folder names = .ok (p, t'.entry p) ∧ p = placeFrom folder names := by
  induction names generalizing folder with
  | nil =>
      obtain ⟨rfl, rfl⟩ := Prod.mk.inj (Except.ok.inj h)
      rw [hg _ hf]
      exact ⟨rfl, rfl⟩
  | cons name rest ih =>
      unfold walk at h ⊢
      split at h
      · cases h
      · next hlong =>
          rw [if_neg hlong]
          dsimp only at h ⊢
          unfold placeFrom
          rw [List.foldl_cons]
          generalize (if name = ".." then folder.dropLast else folder ++ [name]) = next at h ⊢
          split at h
          · next hfolder =>
              rw [hg _ hfolder]
              exact ih hfolder h
          · split at h
            · next hrest =>
                obtain ⟨rfl, -⟩ := Prod.mk.inj (Except.ok.inj h)
                obtain rfl := List.isEmpty_iff.mp hrest
                refine ⟨?_, rfl⟩
                cases t'.entry next <;> rfl
            · cases h
          · split at h
            · next hrest =>
                obtain ⟨rfl, -⟩ := Prod.mk.inj (Except.ok.inj h)
                obtain rfl := List.isEmpty_iff.mp hrest
                refine ⟨?_, rfl⟩
                cases t'.entry next <;> rfl
            · cases h

/-- In a closed tree the place of a walk that arrives is in a folder. -/
theorem folder_above_walk (hc : t.Closed) (hf : t.entry folder = .folder)
    (h : walk t folder names = .ok (p, e)) : t.entry p.dropLast = .folder := by
  have hup (r : Place) (hr : t.entry r = .folder) : t.entry r.dropLast = .folder :=
    hc r (by rw [hr]; exact nofun)
  induction names generalizing folder with
  | nil =>
      obtain ⟨rfl, -⟩ := Prod.mk.inj (Except.ok.inj h)
      exact hup _ hf
  | cons name rest ih =>
      have hnext : t.entry (if name = ".." then folder.dropLast else folder ++ [name]).dropLast =
          .folder := by
        split
        · exact hup _ (hup _ hf)
        · rwa [List.dropLast_concat]
      unfold walk at h
      split at h
      · cases h
      · dsimp only at h
        generalize (if name = ".." then folder.dropLast else folder ++ [name]) = next at h hnext
        split at h
        · next hfolder => exact ih hfolder h
        · split at h
          · obtain ⟨rfl, -⟩ := Prod.mk.inj (Except.ok.inj h)
            exact hnext
          · cases h
        · split at h
          · obtain ⟨rfl, -⟩ := Prod.mk.inj (Except.ok.inj h)
            exact hnext
          · cases h

/-- In a closed tree names without double dots lead to their place if something stands there and no
    name is impossible, of which a walk in any other tree is a sign. -/
theorem walk_of_closed (hc : t.Closed) (hdots : ".." ∉ names)
    (h : walk t' folder names = .ok (p, e)) (hf : t.entry folder = .folder)
    (hp : t.entry p ≠ .nothing) : walk t folder names = .ok (p, t.entry p) := by
  induction names generalizing folder with
  | nil =>
      obtain ⟨rfl, rfl⟩ := Prod.mk.inj (Except.ok.inj h)
      rw [hf]
      rfl
  | cons name rest ih =>
      rw [List.mem_cons, not_or] at hdots
      unfold walk at h ⊢
      split at h
      · cases h
      · next hlong =>
          rw [if_neg hlong]
          rw [if_neg (Ne.symm hdots.1)] at h ⊢
          dsimp only at h ⊢
          cases rest with
          | nil =>
              have hplace : p = folder ++ [name] := by
                split at h
                · exact (Prod.mk.inj (Except.ok.inj h)).1.symm
                · exact (Prod.mk.inj (Except.ok.inj h)).1.symm
                · exact (Prod.mk.inj (Except.ok.inj h)).1.symm
              rw [hplace]
              cases t.entry (folder ++ [name]) <;> rfl
          | cons name' rest =>
              split at h
              · next hfolder =>
                  have hplace := (walk_of_folders (fun _ hq => hq) hfolder h).2
                  rw [placeFrom_of_no_dots hdots.2] at hplace
                  have hnext : t.entry (folder ++ [name]) = .folder :=
                    hc.folder_above (List.cons_ne_nil name' rest) (hplace ▸ hp)
                  rw [hnext]
                  exact ih hdots.2 h hnext
              · cases h
              · cases h

/-! ## 5. Finding -/

variable {path source target : Path}

theorem entry_top (t : Tree) : t.entry [] = .folder := rfl

theorem find_eq_ok_iff : find t path = .ok (p, e) ↔
    path.hasZero = false ∧ walk t [] path.parts = .ok (p, e) := by
  unfold find
  cases path.hasZero with
  | true => simp
  | false => cases walk t [] path.parts <;> simp

/-- **A path that leads somewhere** still leads there where the tree has grown. -/
theorem find_of_folders (hg : ∀ q, t.entry q = .folder → t'.entry q = .folder)
    (h : find t path = .ok (p, e)) : find t' path = .ok (p, t'.entry p) := by
  rw [find_eq_ok_iff] at h ⊢
  exact ⟨h.1, (walk_of_folders hg (entry_top t) h.2).1⟩

theorem place_of_find (h : find t path = .ok (p, e)) : p = placeFrom [] path.parts :=
  (walk_of_folders (fun _ hq => hq) (entry_top t) (find_eq_ok_iff.mp h).2).2

theorem entry_of_find (h : find t path = .ok (p, e)) : e = t.entry p := by
  have h' := find_of_folders (fun _ hq => hq) h
  rw [h] at h'
  exact (Prod.mk.inj (Except.ok.inj h')).2

/-- **In a closed tree** what stands at the place of a path is found by it. -/
theorem find_of_closed (hc : t.Closed) (hdots : ".." ∉ path.parts)
    (h : find t' path = .ok (p, e)) (hp : t.entry p ≠ .nothing) :
    find t path = .ok (p, t.entry p) := by
  rw [find_eq_ok_iff] at h ⊢
  exact ⟨h.1, walk_of_closed hc hdots h.2 (entry_top t) hp⟩

theorem folder_above_find (hc : t.Closed) (h : find t path = .ok (p, e)) :
    t.entry p.dropLast = .folder :=
  folder_above_walk hc (entry_top t) (find_eq_ok_iff.mp h).2

/-! ## 6. Operations -/

theorem makeFolder_eq_ok (h : makeFolder t path = .ok t') :
    t' = t ∨ ∃ q, find t path = .ok (q, .nothing) ∧ t' = t.addFolder q := by
  unfold makeFolder at h
  split at h
  · cases h
  · exact .inl (Except.ok.inj h).symm
  · cases h
  · next q hq => exact .inr ⟨q, hq, (Except.ok.inj h).symm⟩

theorem keeps_makeFolder (p : Place) (h : makeFolder t path = .ok t') : Keeps p t t' := by
  rcases makeFolder_eq_ok h with rfl | ⟨q, hq, rfl⟩
  · exact Keeps.refl p _
  · exact keeps_addFolder p (entry_of_find hq).symm

theorem closed_makeFolder (hc : t.Closed) (h : makeFolder t path = .ok t') : t'.Closed := by
  rcases makeFolder_eq_ok h with rfl | ⟨q, hq, rfl⟩
  · exact hc
  · exact closed_addFolder hc (entry_of_find hq).symm (folder_above_find hc hq)

/-- What making one folder brings about, and what may come about step by step, making several does. -/
theorem makeFoldersFrom_induction {R : Tree → Tree → Prop} (hrefl : ∀ t, R t t)
    (htrans : ∀ {t t' t''}, R t t' → R t' t'' → R t t'')
    (hstep : ∀ {t path t'}, makeFolder t path = .ok t' → R t t') (fuel : Nat) (t : Tree) (path : Path) :
    R t (makeFoldersFrom fuel t path).2 := by
  induction fuel generalizing t path with
  | zero => exact hrefl t
  | succ fuel ih =>
      unfold makeFoldersFrom
      split
      · next h => exact hstep h
      · have hparent := ih t path.parent
        split
        · next h =>
            rw [h] at hparent
            exact hparent
        · next h =>
            rw [h] at hparent
            split
            · next h' => exact htrans hparent (hstep h')
            · exact hparent
      · exact hrefl t

theorem keeps_makeFolders (p : Place) (t : Tree) (path : Path) : Keeps p t (makeFolders t path).2 :=
  makeFoldersFrom_induction (Keeps.refl p) Keeps.trans (keeps_makeFolder p) _ t path

theorem closed_makeFolders (hc : t.Closed) (path : Path) : (makeFolders t path).2.Closed :=
  makeFoldersFrom_induction (R := fun t t' => t.Closed → t'.Closed) (fun _ h => h)
    (fun h h' hc => h' (h hc)) (fun h hc => closed_makeFolder hc h) _ t path hc

theorem write_eq_ok (h : write t path c = .ok t') :
    ∃ q e, find t path = .ok (q, e) ∧ t.entry q ≠ .folder ∧ t' = t.addFile q c := by
  unfold write at h
  split at h
  · cases h
  · cases h
  · next q e hne hfind =>
      refine ⟨q, e, hfind, fun hfolder => hne ?_, (Except.ok.inj h).symm⟩
      rw [entry_of_find hfind, hfolder]

theorem move_eq_ok (h : move t source target = .ok t') :
    ∃ q c q' e, find t source = .ok (q, .file c) ∧ find t target = .ok (q', e) ∧
      t.entry q' ≠ .folder ∧ t' = (t.dropFile q).addFile q' c := by
  have hfile {q' : Place} {e : Entry} (hq : find t target = .ok (q', e)) (he : e ≠ .folder) :
      t.entry q' ≠ .folder := by
    rwa [← entry_of_find hq]
  unfold move at h
  split at h
  · next q c q' d hs ht =>
      exact ⟨q, c, q', _, hs, ht, hfile ht nofun, (Except.ok.inj h).symm⟩
  · next q c q' hs ht =>
      exact ⟨q, c, q', _, hs, ht, hfile ht nofun, (Except.ok.inj h).symm⟩
  · cases h
  · cases h
  · cases h
  · cases h

end StepRunner.Files
