import StepRunner.Proofs.Files.Plain
import StepRunner.Proofs.Store.Agreement

/-!
# Saves that keep their word

A save is `Honoured` if nothing is made outside of the root, and either the run can be loaded then, or the save is
refused with a word about the run and what can be loaded stays as it was.

* `saveTo_of_barred`, `saveTo_of_unwritable`, `saveTo_of_snapshot_folder`, `saveTo_of_room`: what a save below the root
  does, by what stands there;
* `saveTo_of_zero`, `saveTo_of_long`, `load_of_long`: ids that no file can be called by;
* `loadFrom_draft`: a draft changes nothing that is loaded, be it in the place of another run's folder;
* `save_honoured_iff`: which saves are honoured. A save does not ask whether its id is one that is loaded, so runs are
  taken under ids that are not, and are lost.
-/

namespace StepRunner.Store

open Files

variable {root path : Path} {t t' : Tree} {run : Run} {id : String} {p q : Place} {c : Content}

/-! ## 1. What a save promises -/

/-- Outside of the place nothing is new but folders that lead to it. -/
def Within (place : Place) (t t' : Tree) : Prop :=
  ∀ p, ¬ place <+: p → t'.entry p = t.entry p ∨ p <+: place ∧ t'.entry p = .folder

/-- **The save keeps its word**: nothing is made outside of the root, and the run can be loaded then, or the save is
    refused as one of the run and what can be loaded stays. -/
structure Honoured (root : Path) (t : Tree) (run : Run) : Prop where
  within : Within (placeFrom [] root.parts) t (saveTo root t run).2
  outcome : (∃ message, (saveTo root t run).1 = .error (.persistence message)) ∧
      (∀ id, (folder root (saveTo root t run).2).load id = (folder root t).load id) ∨
    (saveTo root t run).1 = .ok () ∧ (folder root (saveTo root t run).2).load run.id = .ok (some run.toJson)

/-- The id leads to the root or down from it, by names of files. -/
structure LeadsDown (id : String) : Prop where
  relative : (Path.ofString id).root = ""
  names : ∀ part ∈ (Path.ofString id).parts, IsName part

/-- The draft of the run cannot be written: a file is in the way, or a folder stands in its place. -/
def Barred (root : Path) (t : Tree) (id : String) : Prop :=
  Blocked t (runFolder root id).parts ∨ t.entry (placeOf root id "run.json.tmp") = .folder

theorem leadsDown_of_isLoadable (hl : isLoadable id = true) (hzero : Char.ofNat 0 ∉ id.toList)
    (hfits : id.utf8ByteSize ≤ nameLimit) : LeadsDown id := by
  refine ⟨by rw [ofString_of_isLoadable hl], fun part hpart => ?_⟩
  rw [ofString_of_isLoadable hl, List.mem_singleton] at hpart
  rw [hpart]
  exact ⟨ne_dots_of_isLoadable hl, hfits, hzero⟩

theorem LeadsDown.runFolder (h : LeadsDown id) :
    runFolder root id = { root with parts := root.parts ++ (Path.ofString id).parts } :=
  if_pos (beq_iff_eq.mpr h.relative)

theorem LeadsDown.isPlain (h : LeadsDown id) (hr : IsPlain root) : IsPlain (Store.runFolder root id) := by
  rw [h.runFolder]
  exact ⟨fun part hpart => (List.mem_append.mp hpart).elim (hr.names part) (h.names part), hr.root⟩

theorem folderOf_of_isPlain (h : IsPlain (runFolder root id)) : folderOf root id = (runFolder root id).parts := h.place

theorem LeadsDown.below (h : LeadsDown id) (hr : IsPlain root) : root.parts <+: folderOf root id := by
  rw [folderOf_of_isPlain (h.isPlain hr), h.runFolder]
  exact List.prefix_append _ _

/-! ## 2. What is not honoured, and what is -/

theorem within_refl (place : Place) (t : Tree) : Within place t t := fun _ _ => .inl rfl

theorem within_addFile (h : p <+: q) : Within p t (t.addFile q c) := by
  refine fun r hr => .inl (Tree.entry_addFile_of_ne ?_)
  rintro rfl
  exact hr h

/-- A refusal that touches nothing is honoured. -/
theorem honoured_of_refused {message : String} (h : saveTo root t run = (.error (.persistence message), t)) :
    Honoured root t run := by
  refine ⟨?_, .inl ⟨⟨message, by rw [h]⟩, fun id => by rw [h]⟩⟩
  rw [h]
  exact within_refl _ t

theorem not_honoured_of_badName {reason : String} (h : (saveTo root t run).1 = .error (@SaveFault.badName reason)) :
    ¬ Honoured root t run := by
  rintro ⟨-, ⟨⟨message, he⟩, -⟩ | ⟨he, -⟩⟩
  · rw [h] at he
    cases he
  · rw [h] at he
    cases he

/-- **What is never loaded** is not honoured if it is taken. -/
theorem not_honoured_of_not_isLoadable (hl : isLoadable run.id = false) (h : (saveTo root t run).1 = .ok ()) :
    ¬ Honoured root t run := by
  rintro ⟨-, ⟨⟨message, he⟩, -⟩ | ⟨-, he⟩⟩
  · rw [h] at he
    cases he
  · rw [load, hl] at he
    cases he

/-! ## 3. What a save does -/

theorem saveTo_of_makeFolders {f : FileFault} (h : makeFolders t (runFolder root run.id) = (.error f, t')) :
    saveTo root t run = (.error (saveFault run.id f), t') := by
  unfold saveTo
  rw [h]

/-- The zero character of an id is in its path. -/
theorem hasZero_runFolder (h : Char.ofNat 0 ∈ id.toList) : (runFolder root id).hasZero = true := by
  obtain ⟨part, hpart, hz⟩ := Text.exists_mem_splitOn h (show Char.ofNat 0 ≠ '/' by decide)
  have hmem : String.ofList part ∈ (Path.ofString id).parts := by
    refine List.mem_map_of_mem (List.mem_filter.mpr ⟨hpart, ?_⟩)
    have hne : part ≠ [] := List.ne_nil_of_mem hz
    have hdot : part ≠ ['.'] := by
      rintro rfl
      exact absurd (List.mem_singleton.mp hz) (by decide)
    simp [hne, hdot]
  refine (hasZero_iff _).mpr (.inr ⟨String.ofList part, ?_, by rwa [String.toList_ofList]⟩)
  show _ ∈ (if (Path.ofString id).root == "" then _ else _ : Path).parts
  split
  · exact List.mem_append_right _ hmem
  · exact hmem

/-- **An id with the zero character** is refused, but not as one of the run. -/
theorem saveTo_of_zero (h : Char.ofNat 0 ∈ run.id.toList) :
    saveTo root t run = (.error (@SaveFault.badName FileFault.zeroCharacter.message), t) := by
  have hmake : makeFolder t (runFolder root run.id) = .error .zeroCharacter := by
    unfold makeFolder find
    rw [hasZero_runFolder h, if_pos rfl]
  rw [saveTo_of_makeFolders (makeFolders_of_error hmake fun _ => nofun)]
  rfl

/-- The folder of a run in which there is another is there. -/
theorem makeFolders_of_inside {name : String} (hc : t.Closed) (hplain : IsPlain (runFolder root id))
    (h : t.entry (placeOf root id name) = .folder) : makeFolders t (runFolder root id) = (.ok (), t) := by
  have hthere : t.entry (folderOf root id ++ [name]) ≠ .nothing := by
    rw [show t.entry (folderOf root id ++ [name]) = _ from h]
    exact nofun
  have habove : t.entry (folderOf root id) = .folder := hc.folder_above (List.cons_ne_nil _ _) hthere
  rw [folderOf_of_isPlain hplain] at habove
  exact makeFolders_of_entry hc hplain habove

/-- **Where the draft cannot be written**, the run is refused and nothing is touched. -/
theorem saveTo_of_barred (hc : t.Closed) (hplain : IsPlain (runFolder root run.id)) (h : Barred root t run.id) :
    ∃ message, saveTo root t run = (.error (.persistence message), t) := by
  rcases h with ⟨p, c, hp, hfile⟩ | hfolder
  · obtain ⟨cause, hmake⟩ := makeFolders_of_blocked hc hplain.no_zero hp
      (fun name hname => hplain.names name (hp.subset hname)) hfile
    exact ⟨_, saveTo_of_makeFolders hmake⟩
  · have hmake := makeFolders_of_inside hc hplain hfolder
    have hfind := find_made (show (makeFolders t (runFolder root run.id)).1 = .ok () by rw [hmake])
    rw [hmake] at hfind
    have hdraft : find t (draftFile root run.id) = .ok (placeOf root run.id "run.json.tmp", .folder) := by
      rw [← hfolder]
      exact find_child hfind isName_draft
    have hwrite : write t (draftFile root run.id) (.text (draftOf run.toJson)) =
        .error (.path .isFolder (draftFile root run.id).text) := by
      unfold write
      rw [hdraft]
    unfold saveTo
    rw [hmake]
    dsimp only
    rw [hwrite]
    exact ⟨_, rfl⟩

/-- What is there once the folders of a run are made. -/
theorem makeFolders_of_not_barred (hplain : IsPlain (runFolder root id)) (h : ¬ Barred root t id) :
    ∃ t₁, makeFolders t (runFolder root id) = (.ok (), t₁) ∧
      (∀ q, t₁.entry q = if q <+: folderOf root id then .folder else t.entry q) ∧
      t₁.entry (placeOf root id "run.json.tmp") ≠ .folder ∧
      t₁.entry (placeOf root id "run.json") = t.entry (placeOf root id "run.json") := by
  obtain ⟨hok, hentry⟩ := makeFolders_of_free hplain fun hblocked => h (.inl hblocked)
  have hplace (name : String) : ¬ placeOf root id name <+: folderOf root id := fun hp => by
    have hlength := hp.length_le
    rw [placeOf, List.length_append, List.length_singleton] at hlength
    omega
  rw [← folderOf_of_isPlain hplain] at hentry
  refine ⟨_, Prod.ext hok rfl, hentry, ?_, ?_⟩
  · rw [hentry, if_neg (hplace _)]
    exact fun hfolder => h (.inr hfolder)
  · rw [hentry, if_neg (hplace _)]

/-- **A number that is too long** is found out by the writing, and not put down to the run. -/
theorem saveTo_of_unwritable (hplain : IsPlain (runFolder root run.id)) (h : ¬ Barred root t run.id)
    (hw : isWritable run = false) : (saveTo root t run).1 = .error (@SaveFault.badName Json.tooLongMessage) := by
  obtain ⟨t₁, hmake, -, hdraft, -⟩ := makeFolders_of_not_barred hplain h
  rw [saveTo_of_made hmake hdraft rfl, hw]
  rfl

/-- **Where the snapshot cannot be put into place**, the run is refused, and its draft is left. -/
theorem saveTo_of_snapshot_folder (hc : t.Closed) (hplain : IsPlain (runFolder root run.id))
    (h : ¬ Barred root t run.id) (hw : isWritable run = true)
    (hsnap : t.entry (placeOf root run.id "run.json") = .folder) :
    ∃ message, saveTo root t run = (.error (.persistence message),
      t.addFile (placeOf root run.id "run.json.tmp") (.text run.toJson.indented)) := by
  have hmake := makeFolders_of_inside hc hplain hsnap
  have hdraft : t.entry (placeOf root run.id "run.json.tmp") ≠ .folder := fun hfolder => h (.inr hfolder)
  have hmove : move (t.addFile (placeOf root run.id "run.json.tmp") (.text run.toJson.indented))
      (draftFile root run.id) (snapshotFile root run.id) = _ :=
    move_child_of_folder (find_runFolder_draft hmake) isName_draft isName_snapshot (Tree.entry_addFile_self hdraft)
      (Tree.folder_addFile hsnap)
  rw [saveTo_of_made hmake hdraft hmove, hw]
  exact ⟨_, rfl⟩

/-- **Where there is room**, a run that can be written is taken, and nothing is made but the folders on the way to it,
    and in the last of them. -/
theorem saveTo_of_room (hplain : IsPlain (runFolder root run.id)) (h : ¬ Barred root t run.id)
    (hw : isWritable run = true) (hsnap : t.entry (placeOf root run.id "run.json") ≠ .folder) :
    (saveTo root t run).1 = .ok () ∧ ∀ q, ¬ folderOf root run.id <+: q →
      (saveTo root t run).2.entry q = if q <+: folderOf root run.id then .folder else t.entry q := by
  obtain ⟨t₁, hmake, hentry, hdraft, hsnap₁⟩ := makeFolders_of_not_barred hplain h
  rw [saveTo_eq hmake hdraft (hsnap₁ ▸ hsnap), hw]
  refine ⟨rfl, fun q hq => ?_⟩
  have hplace (name : String) : q ≠ placeOf root run.id name := by
    rintro rfl
    exact hq (List.prefix_append _ _)
  show (Tree.addFile (Tree.dropFile (Tree.addFile ..) _) ..).entry q = _
  rw [Tree.entry_addFile_of_ne (hplace _), Tree.entry_dropFile_of_ne (hplace _), Tree.entry_addFile_of_ne (hplace _),
    hentry]

/-! ## 4. What is loaded -/

theorem loadFrom_congr (h : find t' (snapshotFile root id) = find t (snapshotFile root id)) :
    loadFrom root t' id = loadFrom root t id := by
  unfold loadFrom exists? Files.read
  rw [h]

theorem load_congr (h : isLoadable id = true → loadFrom root t' id = loadFrom root t id) :
    (folder root t').load id = (folder root t).load id := by
  rw [load, load]
  split
  · next hl => exact h hl
  · rfl

/-- **A draft changes nothing** that is loaded. It may stand where the folder of another run belongs; then there is
    nothing of that run, and still is not. -/
theorem loadFrom_draft (hr : IsPlain root) (hl : isLoadable id = true)
    (hnames : ∀ name ∈ p, IsName name) (hfree : t.entry (p ++ ["run.json.tmp"]) ≠ .folder) :
    loadFrom root (t.addFile (p ++ ["run.json.tmp"]) c) id = loadFrom root t id := by
  have hparts : (snapshotFile root id).parts = root.parts ++ [id] ++ ["run.json"] := by
    rw [snapshotFile, runFolder_of_isLoadable hl]
    rfl
  by_cases hp : p ++ ["run.json.tmp"] <+: (snapshotFile root id).parts
  · have hne : p ++ ["run.json.tmp"] ≠ (snapshotFile root id).parts := fun e => by
      rw [hparts] at e
      exact absurd (List.append_inj_right' e rfl) (by decide)
    have hdraft : ∀ name ∈ p ++ ["run.json.tmp"], IsName name := fun name hname =>
      (List.mem_append.mp hname).elim (hnames name) fun h => by
        rw [List.mem_singleton.mp h]
        exact isName_draft
    have hthere : (t.addFile (p ++ ["run.json.tmp"]) c).entry (p ++ ["run.json.tmp"]) ≠ .folder := by
      rw [Tree.entry_addFile_self hfree]
      rintro ⟨⟩
    rw [loadFrom_of_not_exists (exists?_below hp hne hdraft hfree),
      loadFrom_of_not_exists (exists?_below hp hne hdraft hthere)]
  · refine loadFrom_congr (find_congr ?_ fun q hq => Tree.entry_addFile_of_ne ?_)
    · rw [hparts]
      simp [hr.not_up, Ne.symm (ne_dots_of_isLoadable hl)]
    · rintro rfl
      exact hp hq

/-! ## 5. Ids that are too long -/

theorem no_zero_runFolder (hr : IsPlain root) (hl : isLoadable id = true) (hzero : Char.ofNat 0 ∉ id.toList) :
    (runFolder root id).hasZero = false := by
  rw [runFolder_of_isLoadable hl]
  exact no_zero_child hr.no_zero hzero

/-- In a root that is there, or cannot be, **an id that is too long** is refused and nothing is touched. -/
theorem saveTo_of_long (hc : t.Closed) (hr : IsPlain root) (hl : isLoadable run.id = true)
    (hzero : Char.ofNat 0 ∉ run.id.toList) (hlong : nameLimit < run.id.utf8ByteSize) (h : ¬ Absent t root) :
    ∃ message, saveTo root t run = (.error (.persistence message), t) := by
  have hzero := no_zero_runFolder hr hl hzero
  by_cases hblocked : Blocked t root.parts
  · obtain ⟨p, c, hp, hfile⟩ := hblocked
    have hway : p <+: (runFolder root run.id).parts := by
      rw [parts_runFolder hl]
      exact hp.trans (List.prefix_append _ _)
    obtain ⟨cause, hmake⟩ := makeFolders_of_blocked hc hzero hway
      (fun name hname => hr.names name (hp.subset hname)) hfile
    exact ⟨_, saveTo_of_makeFolders hmake⟩
  · obtain ⟨⟨p, hp⟩, -⟩ := (folder_or_absent (makeFolders_of_free hr hblocked).1).resolve_right h
    have hmake : makeFolder t (runFolder root run.id) = .error (.path .nameTooLong (runFolder root run.id).text) := by
      unfold makeFolder
      rw [find_of_long hp hlong (parts_runFolder hl) hzero]
    exact ⟨_, saveTo_of_makeFolders (makeFolders_of_error hmake fun _ => nofun)⟩

/-- A root that is not there is made first; of the id, of which there was nothing before, it cannot be told then
    whether there is. -/
theorem load_of_long (hc : t.Closed) (hr : IsPlain root) (hl : isLoadable run.id = true)
    (hzero : Char.ofNat 0 ∉ run.id.toList) (hlong : nameLimit < run.id.utf8ByteSize) (h : Absent t root) :
    (folder root t).load run.id = .ok none ∧
      ∃ fault, (folder root (saveTo root t run).2).load run.id = .error fault := by
  have hok := (makeFolders_of_free hr (not_blocked_of_absent hc hr h)).1
  have hroot := find_made hok
  have hsave : (saveTo root t run).2 = (makeFolders t root).2 := by
    have hfolder := no_zero_runFolder hr hl hzero
    have hmake : makeFolder (makeFolders t root).2 (runFolder root run.id) =
        .error (.path .nameTooLong (runFolder root run.id).text) := by
      unfold makeFolder
      rw [find_of_long hroot hlong (parts_runFolder hl) hfolder]
    rw [runFolder_of_isLoadable hl] at hfolder hmake
    have hmakes := makeFolders_child_eq hok hfolder
    rw [hmake, ← runFolder_of_isLoadable hl] at hmakes
    rw [saveTo_of_makeFolders hmakes]
  have hsnap : find (makeFolders t root).2 (snapshotFile root run.id) =
      .error (.path .nameTooLong (snapshotFile root run.id).text) := by
    have hparts : (snapshotFile root run.id).parts = root.parts ++ run.id :: ["run.json"] := by
      rw [snapshotFile, runFolder_of_isLoadable hl]
      exact List.append_assoc ..
    exact find_of_long hroot hlong hparts (no_zero_child (no_zero_runFolder hr hl hzero) isName_snapshot.no_zero)
  rw [load, load, hl, if_pos rfl, if_pos rfl, loadFrom_of_absent h hl hzero, hsave]
  refine ⟨rfl, .file (.path .nameTooLong (snapshotFile root run.id).text), ?_⟩
  unfold loadFrom exists?
  rw [hsnap]

/-! ## 6. Which saves are honoured -/

/-- A save under an id that is too long is honoured if it does not make the root. -/
theorem honoured_iff_of_long (hc : t.Closed) (hr : IsPlain root) (hl : isLoadable run.id = true)
    (hzero : Char.ofNat 0 ∉ run.id.toList) (hlong : nameLimit < run.id.utf8ByteSize) :
    Honoured root t run ↔ ¬ Absent t root := by
  by_cases habsent : Absent t root
  · refine iff_of_false ?_ (not_not_intro habsent)
    obtain ⟨hbefore, fault, hafter⟩ := load_of_long hc hr hl hzero hlong habsent
    rintro ⟨-, ⟨-, hkept⟩ | ⟨-, hloaded⟩⟩
    · cases hbefore.symm.trans ((hkept run.id).symm.trans hafter)
    · cases hafter.symm.trans hloaded
  · obtain ⟨message, h⟩ := saveTo_of_long hc hr hl hzero hlong habsent
    exact iff_of_true (honoured_of_refused h) habsent

/-- A save below the root is honoured if it is refused because of the files, or taken under an id that is loaded. -/
theorem honoured_iff_of_leadsDown (hc : t.Closed) (hr : IsPlain root) (hp : run.config.Proper)
    (hdown : LeadsDown run.id) : Honoured root t run ↔ Barred root t run.id ∨ isWritable run = true ∧
      (isLoadable run.id = true ∨ t.entry (placeOf root run.id "run.json") = .folder) := by
  have hplain := hdown.isPlain hr
  have hbelow := hdown.below hr
  by_cases hbarred : Barred root t run.id
  · obtain ⟨message, h⟩ := saveTo_of_barred hc hplain hbarred
    exact iff_of_true (honoured_of_refused h) (.inl hbarred)
  rw [or_iff_right hbarred]
  cases hw : isWritable run with
  | false => exact iff_of_false (not_honoured_of_badName (saveTo_of_unwritable hplain hbarred hw)) nofun
  | true =>
      rw [eq_self, true_and]
      by_cases hsnap : t.entry (placeOf root run.id "run.json") = .folder
      · refine iff_of_true ?_ (.inr hsnap)
        obtain ⟨message, h⟩ := saveTo_of_snapshot_folder hc hplain hbarred hw hsnap
        refine ⟨?_, .inl ⟨⟨message, by rw [h]⟩, fun id => load_congr fun hl => ?_⟩⟩
        · rw [h, hr.place]
          exact within_addFile (hbelow.trans (List.prefix_append _ _))
        · rw [h]
          refine loadFrom_draft hr hl ?_ fun hfolder => hbarred (.inr hfolder)
          rw [folderOf_of_isPlain hplain]
          exact hplain.names
      · rw [or_iff_left hsnap]
        obtain ⟨hok, hentry⟩ := saveTo_of_room hplain hbarred hw hsnap
        cases hl : isLoadable run.id with
        | false => exact iff_of_false (not_honoured_of_not_isLoadable hl hok) nofun
        | true =>
            refine iff_of_true ⟨?_, .inr ⟨hok, ?_⟩⟩ rfl
            · rw [hr.place]
              intro q hq
              rw [hentry q fun h => hq (hbelow.trans h)]
              split
              · next hon => exact .inr ⟨(List.prefix_or_prefix_of_prefix hon hbelow).resolve_right hq, rfl⟩
              · exact .inl rfl
            · have hkeeps : (folder root t).CanKeep run := ⟨hl, hp⟩
              exact load_save_self hkeeps.canLoad (hkeeps.separates run.id) hok

/-- **Which saves keep their word**, in a closed tree and under a root of names. Under an id that is loaded these are all
    but the saves of an id with the zero character, those of an id that is too long which make the root, and those of a
    run with a number that is too long, unless there is no room for its draft. Under another id below the root they are
    only those that a file or a folder stops; and whatever is taken under such an id, wherever it leads, stands in a
    file that is not loaded. -/
theorem save_honoured_iff (hc : t.Closed) (hr : IsPlain root) (hp : run.config.Proper) :
    (isLoadable run.id = true → (Honoured root t run ↔ Char.ofNat 0 ∉ run.id.toList ∧
      if nameLimit < run.id.utf8ByteSize then ¬ Absent t root else Barred root t run.id ∨ isWritable run = true)) ∧
    (isLoadable run.id = false →
      (Char.ofNat 0 ∈ run.id.toList → ¬ Honoured root t run) ∧
      (LeadsDown run.id → (Honoured root t run ↔ Barred root t run.id ∨
        isWritable run = true ∧ t.entry (placeOf root run.id "run.json") = .folder)) ∧
      ((saveTo root t run).1 = .ok () → ¬ Honoured root t run ∧
        (folder root (saveTo root t run).2).load run.id = .ok none ∧
        (saveTo root t run).2.entry (placeOf root run.id "run.json") = .file (.text run.toJson.indented))) := by
  have hzero (h : Char.ofNat 0 ∈ run.id.toList) : ¬ Honoured root t run :=
    not_honoured_of_badName (by rw [saveTo_of_zero h])
  refine ⟨fun hl => ?_, fun hl => ⟨hzero, fun hdown => ?_, fun hok => ⟨?_, ?_, ?_⟩⟩⟩
  · by_cases hz : Char.ofNat 0 ∈ run.id.toList
    · exact iff_of_false (hzero hz) fun h => h.1 hz
    rw [and_iff_right hz]
    split
    · next hlong => exact honoured_iff_of_long hc hr hl hz hlong
    · next hfits =>
        have hdown := leadsDown_of_isLoadable hl hz (Nat.not_lt.mp hfits)
        rw [honoured_iff_of_leadsDown hc hr hp hdown, hl]
        simp
  · rw [honoured_iff_of_leadsDown hc hr hp hdown, hl]
    simp
  · exact not_honoured_of_not_isLoadable hl hok
  · rw [load, hl]
    rfl
  · exact (entry_of_find (find_saveTo_self hok)).symm

/-- The sample under another id. -/
def sampleAs (id : String) : Run := { Sample.run 300000 with id }

/-- In an empty tree, one id that is honoured, one that is lost, and one that leads to a file beside the root. -/
theorem save_honoured_samples : Honoured ⟨"", ["a", "b"]⟩ {} (sampleAs "x") ∧
    ¬ Honoured ⟨"", ["a", "b"]⟩ {} (sampleAs "x/y") ∧
    ¬ Honoured ⟨"", ["a", "b"]⟩ {} (sampleAs "../x") ∧
    (saveTo ⟨"", ["a", "b"]⟩ {} (sampleAs "../x")).2.entry ["a", "x", "run.json"] =
      .file (.text (sampleAs "../x").toJson.indented) := by
  have hroot : IsPlain ⟨"", ["a", "b"]⟩ := by
    refine ⟨fun part hpart => ?_, by decide⟩
    rcases List.mem_pair.mp hpart with rfl | rfl <;> exact ⟨by decide, by decide, by decide⟩
  have hproper (id : String) : (sampleAs id).config.Proper := ⟨trivial, trivial, trivial, trivial⟩
  have hok (id : String) (h : (saveTo ⟨"", ["a", "b"]⟩ {} (sampleAs id)).1.isOk = true) :
      (saveTo ⟨"", ["a", "b"]⟩ {} (sampleAs id)).1 = .ok () := by
    cases e : (saveTo ⟨"", ["a", "b"]⟩ {} (sampleAs id)).1 with
    | ok u => rfl
    | error f =>
        rw [e] at h
        cases h
  have hnested := (save_honoured_iff Tree.closed_empty hroot (hproper "x/y")).2 (by decide)
  have hbeside := (save_honoured_iff Tree.closed_empty hroot (hproper "../x")).2 (by decide)
  obtain ⟨hlost, -, hfile⟩ := hbeside.2.2 (hok "../x" (by decide +kernel))
  refine ⟨?_, (hnested.2.2 (hok "x/y" (by decide +kernel))).1, hlost, hfile⟩
  rw [(save_honoured_iff Tree.closed_empty hroot (hproper "x")).1 (by decide), if_neg (by decide)]
  exact ⟨by decide, .inr (by decide +kernel)⟩

end StepRunner.Store
