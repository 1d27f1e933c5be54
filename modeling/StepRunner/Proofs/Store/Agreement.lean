import StepRunner.Proofs.Files.Room
import StepRunner.Proofs.Sample
import StepRunner.Proofs.Store

/-!
# Stores that answer alike

A store in memory and one in a folder answer any sequence of `Use`s as one table of runs does, in which
the latest run that was saved under an id stands (`Store.latest?`, `Store.reply`).

* `isWritable_iff`: what makes a run one that can be written;
* `saveTo_spec`: a save into a folder with room for it succeeds, unless a number of the snapshot is too
  long to be written, and which files it changes;
* `Holds.loadFrom`, `Holds.saveTo`: what the files of the runs are is kept along the uses;
* `stores_agree`: the answers of both stores, which are the same where no number is too long; and no draft
  is left by a save that succeeds.

There is room in a folder (`Store.Ready`) that is there or can be made, as long as the ids are names of
files that can be loaded and nothing stands under them at first.
-/

namespace StepRunner.Store

open Files Json

/-! ## 1. Uses and answers -/

/-- What somebody may do with a store. -/
inductive Use where
  | save (run : Run)
  | load (id : String)
  /-- Loads a snapshot and changes what was given out. -/
  | change (id : String) (f : Json → Json)

/-- What a use of a store answers. -/
inductive Answer where
  | saved (outcome : Except SaveFault Unit)
  | loaded (outcome : Except LoadFault (Option Json))

/-- The id that a use is about. -/
def Use.id : Use → String
  | .save run => run.id
  | .load id => id
  | .change id _ => id

/-- The answer to a use, and the store afterwards. -/
def perform (s : Store) : Use → Answer × Store
  | .save run => (.saved (s.save run).1, (s.save run).2)
  | .load id => (.loaded (s.load id), s)
  | .change id f => (.loaded ((s.load id).map (·.map f)), s)

/-- The answers to uses, one after the other. -/
def answers (s : Store) : List Use → List Answer
  | [] => []
  | u :: uses => (s.perform u).1 :: (s.perform u).2.answers uses

/-- The store after uses. -/
def after (s : Store) (uses : List Use) : Store := uses.foldl (fun s u => (s.perform u).2) s

/-- Something stands where the snapshot of a run is written first. -/
def draftLeft (id : String) : Store → Except FileFault Bool
  | .memory _ => .ok false
  | .folder root tree => exists? tree (draftFile root id)

/-- The run of a use that saves one under an id, if it is one that can be kept. -/
def Use.savedAs? (can : Run → Bool) (id : String) : Use → Option Run
  | .save run => if run.id = id ∧ can run = true then some run else none
  | _ => none

/-- The latest run that was saved under an id, of those that can be kept. -/
def latest? (can : Run → Bool) (id : String) (earlier : List Use) : Option Run :=
  (earlier.filterMap (·.savedAs? can id)).getLast?

/-- What a table of the latest runs answers: a run is kept if it can be, and a snapshot is that of the
    latest run, as it was when it was saved. -/
def reply (can : Run → Bool) (earlier : List Use) : Use → Answer
  | .save run =>
    .saved (if can run then .ok () else .error (@SaveFault.badName Json.tooLongMessage))
  | .load id => .loaded (.ok ((latest? can id earlier).map Run.toJson))
  | .change id f => .loaded (.ok ((latest? can id earlier).map fun run => f run.toJson))

/-- The answers of the table, one after the other. -/
def replies (can : Run → Bool) (earlier : List Use) : List Use → List Answer
  | [] => []
  | u :: uses => reply can earlier u :: replies can (earlier ++ [u]) uses

/-- The numbers of the snapshot are not too long to be written. -/
def isWritable (run : Run) : Bool := run.toJson.isWritable

/-- A folder is there, or can be made, and has room for what the uses are about: their ids are names of
    files and can be loaded, and nothing stands under them; the labels of the runs are values. -/
structure Ready (root : Path) (t : Tree) (uses : List Use) : Prop where
  made : (makeFolders t root).1 = .ok ()
  names : ∀ u ∈ uses, isLoadable u.id = true ∧ IsName u.id
  empty : ∀ u ∈ uses, ∀ more,
    (makeFolders t root).2.entry (placeFrom [] root.parts ++ u.id :: more) = .nothing
  proper : ∀ run, .save run ∈ uses → run.config.Proper

variable {can : Run → Bool} {root : Path} {t : Tree} {id id' : String} {run run' : Run} {u : Use}
  {earlier uses : List Use} {ids : List String} {snapshots : List (String × Json)}

theorem latest?_nil : latest? can id [] = none := rfl

theorem latest?_concat : latest? can id (earlier ++ [u]) =
    (u.savedAs? can id).or (latest? can id earlier) := by
  unfold latest?
  rw [List.filterMap_append, List.filterMap_cons, List.filterMap_nil]
  cases u.savedAs? can id with
  | none => rw [List.append_nil, Option.none_or]
  | some run => rw [List.getLast?_concat, Option.some_or]

theorem latest?_concat_save : latest? can id (earlier ++ [.save run]) =
    if run.id = id ∧ can run = true then some run else latest? can id earlier := by
  rw [latest?_concat, Use.savedAs?]
  split <;> rfl

theorem replies_congr {can' : Run → Bool} (h : ∀ run, .save run ∈ earlier ++ uses → can run = can' run) :
    replies can earlier uses = replies can' earlier uses := by
  induction uses generalizing earlier with
  | nil => rfl
  | cons u uses ih =>
      have hlatest (id : String) : latest? can id earlier = latest? can' id earlier := by
        unfold latest?
        congr 1
        refine List.filterMap_congr fun u hu => ?_
        cases u with
        | save run => rw [Use.savedAs?, Use.savedAs?, h run (List.mem_append_left _ hu)]
        | load => rfl
        | change => rfl
      have hreply : reply can earlier u = reply can' earlier u := by
        cases u with
        | save run => rw [reply, reply, h run (by simp)]
        | load id => rw [reply, reply, hlatest]
        | change id f => rw [reply, reply, hlatest]
      rw [replies, replies, hreply, ih (by simpa using h)]

/-! ## 2. Numbers that are too long -/

theorem isWritable_momentJson (t : Option Instant) : (Run.momentJson t).isWritable = true := by
  cases t <;> rfl

theorem isWritable_ofString? (s : Option String) : (ofString? s).isWritable = true := by
  cases s <;> rfl

theorem isWritable_caseJson (c : TestCase) : (run.caseJson c).isWritable = true ↔
    ∀ r, run.caseResults.result? c.id = some r → isTooLong r.duration = false := by
  unfold Run.caseJson
  cases h : run.caseResults.result? c.id with
  | none =>
      have hzero : isTooLong 0 = false := by decide +kernel
      simp [Json.isWritable, haveWritable, hzero]
  | some r =>
      have hlogs : areWritable (r.logs.map .str) = true := by
        rw [areWritable_eq_all, List.all_map]
        exact List.all_eq_true.mpr fun _ _ => rfl
      simp [Json.isWritable, haveWritable, CaseResult.fields, hlogs, isWritable_ofString?]

/-- **Which runs can be written**: titles, messages, logs and errors do not matter, only the numbers of the
    configuration, the counts and the durations of the cases. -/
theorem isWritable_iff : isWritable run = true ↔ run.config.toJson.isWritable = true ∧
    run.counts.toJson.isWritable = true ∧
    ∀ c ∈ run.testCases, ∀ r, run.caseResults.result? c.id = some r → isTooLong r.duration = false := by
  have hcases : areWritable (run.testCases.map run.caseJson) = true ↔
      ∀ c ∈ run.testCases, ∀ r, run.caseResults.result? c.id = some r → isTooLong r.duration = false := by
    rw [areWritable_eq_all, List.all_map, List.all_eq_true]
    exact forall₂_congr fun c _ => isWritable_caseJson c
  rw [← hcases]
  simp [isWritable, Run.toJson, Json.isWritable, haveWritable, isWritable_momentJson, isWritable_ofString?]

/-! ## 3. In memory -/

/-- The snapshots are those of the latest runs. -/
theorem answers_memory (h : ∀ id, snapshots.lookup id =
      (latest? (fun _ => true) id earlier).map Run.toJson) (uses : List Use) :
    (memory snapshots).answers uses = replies (fun _ => true) earlier uses := by
  induction uses generalizing snapshots earlier with
  | nil => rfl
  | cons u uses ih =>
      have hstay (hu : ∀ id, u.savedAs? (fun _ => true) id = none) (id : String) :
          snapshots.lookup id = (latest? (fun _ => true) id (earlier ++ [u])).map Run.toJson := by
        rw [latest?_concat, hu, Option.none_or, h]
      cases u with
      | save run =>
          refine congrArg₂ List.cons rfl (ih fun id => ?_)
          rw [lookup_set, latest?_concat_save, h]
          by_cases hid : run.id = id
          · simp [hid]
          · simp [hid, Ne.symm hid]
      | load id =>
          refine congrArg₂ List.cons ?_ (ih (hstay fun _ => rfl))
          show Answer.loaded (.ok (snapshots.lookup id)) = _
          rw [h, reply]
      | change id f =>
          refine congrArg₂ List.cons ?_ (ih (hstay fun _ => rfl))
          show Answer.loaded (.ok ((snapshots.lookup id).map f)) = _
          rw [h, reply, Option.map_map]
          rfl

/-! ## 4. Saving where there is room -/

theorem isName_snapshot : IsName "run.json" := ⟨by decide, by decide, by decide⟩

theorem isName_draft : IsName "run.json.tmp" := ⟨by decide, by decide, by decide⟩

theorem runFolder_of_isLoadable (h : isLoadable id = true) : runFolder root id = root.child id := by
  unfold runFolder
  rw [ofString_of_isLoadable h]
  rfl

theorem folderOf_ne_placeOf {name : String} (h : isLoadable id = true) (h' : isLoadable id' = true) :
    folderOf root id ≠ placeOf root id' name := by
  intro e
  have hlength := congrArg List.length e
  rw [placeOf, folderOf_of_isLoadable h, folderOf_of_isLoadable h'] at hlength
  simp at hlength

/-- The folder of a run is made where there is room for it, and nothing else changes. -/
theorem makeFolders_runFolder (hmade : (makeFolders t root).1 = .ok ()) (hl : isLoadable id = true)
    (hn : IsName id) (hfile : ∀ c, (makeFolders t root).2.entry (folderOf root id) ≠ .file c) :
    ∃ t₁, makeFolders t (runFolder root id) = (.ok (), t₁) ∧
      find t₁ (runFolder root id) = .ok (folderOf root id, .folder) ∧
      t₁.entry (folderOf root id) = .folder ∧
      ∀ q, q ≠ folderOf root id → t₁.entry q = (makeFolders t root).2.entry q := by
  rw [folderOf_of_isLoadable hl] at hfile
  have hmake := makeFolders_child hmade hn hfile
  rw [← runFolder_of_isLoadable hl, ← folderOf_of_isLoadable hl] at hmake
  have hfind := find_made (by rw [hmake])
  rw [hmake] at hfind
  refine ⟨_, hmake, hfind, (entry_of_find hfind).symm, fun q hq => ?_⟩
  rw [Tree.entry_addFolder_unless, if_neg hq]

/-- Where the draft can be written, the rest of a save is to move it, unless a number is too long. -/
theorem saveTo_of_made {t₁ : Tree} {moved : Except FileFault Tree}
    (hmake : makeFolders t (runFolder root run.id) = (.ok (), t₁))
    (hdraft : t₁.entry (placeOf root run.id "run.json.tmp") ≠ .folder)
    (hmove : move (t₁.addFile (placeOf root run.id "run.json.tmp") (.text run.toJson.indented))
      (draftFile root run.id) (snapshotFile root run.id) = moved) : saveTo root t run =
      if isWritable run then
        ((moved.mapError (saveFault run.id)).map fun _ => (),
          moved.toOption.getD (t₁.addFile (placeOf root run.id "run.json.tmp") (.text run.toJson.indented)))
      else (.error (@SaveFault.badName Json.tooLongMessage),
        t₁.addFile (placeOf root run.id "run.json.tmp") (.text run.toJson.draft)) := by
  have hfind : find t₁ (runFolder root run.id) = .ok (folderOf root run.id, .folder) := by
    have hmade := find_made (show (makeFolders t (runFolder root run.id)).1 = .ok () by rw [hmake])
    rwa [hmake] at hmade
  have hwrite (c : Content) : write t₁ (draftFile root run.id) c =
      .ok (t₁.addFile (placeOf root run.id "run.json.tmp") c) := write_child hfind isName_draft hdraft
  unfold saveTo
  rw [hmake]
  dsimp only
  rw [hwrite, isWritable, draftOf]
  cases run.toJson.isWritable with
  | false => simp only [if_neg Bool.false_ne_true]
  | true =>
      simp only [if_true, hmove]
      cases moved <;> rfl

/-- The folder of the run is still there when the draft is. -/
theorem find_runFolder_draft {t₁ : Tree} {c : Content} (hmake : makeFolders t (runFolder root run.id) = (.ok (), t₁)) :
    find (t₁.addFile (placeOf root run.id "run.json.tmp") c) (runFolder root run.id) =
      .ok (folderOf root run.id, .folder) := by
  have hfind := find_made (show (makeFolders t (runFolder root run.id)).1 = .ok () by rw [hmake])
  rw [hmake] at hfind
  rw [find_of_folders (fun _ => Tree.folder_addFile) hfind, Tree.folder_addFile (entry_of_find hfind).symm]
  rfl

/-- **A save into a folder that can be made** moves the draft into place, unless a number is too long. -/
theorem saveTo_eq {t₁ : Tree} (hmake : makeFolders t (runFolder root run.id) = (.ok (), t₁))
    (hdraft : t₁.entry (placeOf root run.id "run.json.tmp") ≠ .folder)
    (hsnap : t₁.entry (placeOf root run.id "run.json") ≠ .folder) : saveTo root t run =
      if isWritable run then
        (.ok (), ((t₁.addFile (placeOf root run.id "run.json.tmp") (.text run.toJson.indented)).dropFile
          (placeOf root run.id "run.json.tmp")).addFile (placeOf root run.id "run.json")
            (.text run.toJson.indented))
      else (.error (@SaveFault.badName Json.tooLongMessage),
        t₁.addFile (placeOf root run.id "run.json.tmp") (.text run.toJson.draft)) := by
  have hne : placeOf root run.id "run.json" ≠ placeOf root run.id "run.json.tmp" := by
    simp [placeOf_inj]
  have hmove : move (t₁.addFile (placeOf root run.id "run.json.tmp") (.text run.toJson.indented))
      (draftFile root run.id) (snapshotFile root run.id) = _ :=
    move_child (find_runFolder_draft hmake) isName_draft isName_snapshot (Tree.entry_addFile_self hdraft)
      ((Tree.entry_addFile_of_ne hne).trans_ne hsnap)
  rw [saveTo_of_made hmake hdraft hmove]
  rfl

/-- **A save where there is room** succeeds unless a number is too long, and changes nothing but the
    folder, the draft and the snapshot of the run. -/
theorem saveTo_spec (hmade : (makeFolders t root).1 = .ok ()) (hl : isLoadable run.id = true)
    (hn : IsName run.id)
    (hfolder : ∀ c, (makeFolders t root).2.entry (folderOf root run.id) ≠ .file c)
    (hdraft : (makeFolders t root).2.entry (placeOf root run.id "run.json.tmp") ≠ .folder)
    (hsnap : (makeFolders t root).2.entry (placeOf root run.id "run.json") ≠ .folder) :
    (saveTo root t run).1 =
        (if isWritable run then .ok () else .error (@SaveFault.badName Json.tooLongMessage)) ∧
      (∀ q, q ≠ folderOf root run.id → q ≠ placeOf root run.id "run.json.tmp" →
        q ≠ placeOf root run.id "run.json" →
        (saveTo root t run).2.entry q = (makeFolders t root).2.entry q) ∧
      (saveTo root t run).2.entry (folderOf root run.id) = .folder ∧
      (saveTo root t run).2.entry (placeOf root run.id "run.json.tmp") =
        (if isWritable run then .nothing else .file (.text run.toJson.draft)) ∧
      (saveTo root t run).2.entry (placeOf root run.id "run.json") =
        (if isWritable run then .file (.text run.toJson.indented)
          else (makeFolders t root).2.entry (placeOf root run.id "run.json")) := by
  have hne : placeOf root run.id "run.json" ≠ placeOf root run.id "run.json.tmp" := by
    simp [placeOf_inj]
  have hF (name : String) : folderOf root run.id ≠ placeOf root run.id name :=
    folderOf_ne_placeOf hl hl
  obtain ⟨t₁, hmake, hfind, hself, hother⟩ := makeFolders_runFolder hmade hl hn hfolder
  rw [← hother _ (hF _).symm] at hdraft hsnap
  have hsave := saveTo_eq hmake hdraft hsnap
  cases hw : isWritable run with
  | false =>
      rw [hw, if_neg Bool.false_ne_true] at hsave
      rw [hsave]
      refine ⟨rfl, fun q hq hq' _ => ?_, ?_, ?_, ?_⟩
      · rw [Tree.entry_addFile_of_ne hq', hother q hq]
      · rw [Tree.entry_addFile_of_ne (hF _), hself]
      · exact Tree.entry_addFile_self hdraft
      · rw [Tree.entry_addFile_of_ne hne, hother _ (hF _).symm]
        rfl
  | true =>
      rw [hw, if_pos rfl] at hsave
      rw [hsave]
      refine ⟨rfl, fun q hq hq' hq'' => ?_, ?_, ?_, ?_⟩
      · rw [Tree.entry_addFile_of_ne hq'', Tree.entry_dropFile_of_ne hq', Tree.entry_addFile_of_ne hq',
          hother q hq]
      · rw [Tree.entry_addFile_of_ne (hF _), Tree.entry_dropFile_of_ne (hF _),
          Tree.entry_addFile_of_ne (hF _), hself]
      · rw [Tree.entry_addFile_of_ne hne.symm,
          Tree.entry_dropFile_self (by rw [Tree.entry_addFile_self hdraft]; exact nofun)]
        rfl
      · exact Tree.entry_addFile_self (by rwa [Tree.entry_dropFile_of_ne hne, Tree.entry_addFile_of_ne hne])

/-! ## 5. The files along the uses -/

/-- What stands under an id: no file in the place of its folder, no folder in the place of its draft, and
    in the place of its snapshot that of a run, which can be read, or nothing if there is no run. -/
structure Shelf (root : Path) (t : Tree) (id : String) (run? : Option Run) : Prop where
  folder : ∀ c, t.entry (folderOf root id) ≠ .file c
  draft : t.entry (placeOf root id "run.json.tmp") ≠ .folder
  snapshot : t.entry (placeOf root id "run.json") =
    match run? with
    | none => .nothing
    | some run => .file (.text run.toJson.indented)
  above : ∀ run ∈ run?, t.entry (folderOf root id) = .folder
  readable : ∀ run ∈ run?, valueOf (.text run.toJson.indented) = .ok run.toJson

theorem Shelf.snapshot_ne {run? : Option Run} (hs : Shelf root t id run?) :
    t.entry (placeOf root id "run.json") ≠ .folder := by
  rw [hs.snapshot]
  split <;> exact nofun

/-- Under the ids stand the latest runs, once the folder is made; none where it is not. -/
structure Holds (root : Path) (t : Tree) (ids : List String) (earlier : List Use) : Prop where
  made : (makeFolders t root).1 = .ok ()
  names : ∀ id ∈ ids, isLoadable id = true ∧ IsName id
  shelves : ∀ id ∈ ids, Shelf root (makeFolders t root).2 id (latest? isWritable id earlier)
  fresh : Absent t root → ∀ id ∈ ids, latest? isWritable id earlier = none

theorem exists?_of_find {path : Path} {p : Place} {c : Content} (h : find t path = .ok (p, .file c)) :
    exists? t path = .ok true ∧ Files.read t path = .ok c := by
  unfold exists? Files.read
  rw [h]
  exact ⟨rfl, rfl⟩

theorem loadFrom_of_not_exists (h : exists? t (snapshotFile root id) = .ok false) :
    Store.loadFrom root t id = .ok none := by
  rw [Store.loadFrom, h]

/-- In a folder that is not there, nothing is loaded. -/
theorem loadFrom_of_absent (h : Absent t root) (hl : isLoadable id = true) (hn : Char.ofNat 0 ∉ id.toList) :
    loadFrom root t id = .ok none := by
  have habsent : Absent t (snapshotFile root id) := by
    rw [snapshotFile, runFolder_of_isLoadable hl]
    exact absent_child (absent_child h hn) isName_snapshot.no_zero
  exact loadFrom_of_not_exists (exists?_of_absent habsent)

/-- In a folder that is there, the run of the shelf is loaded. -/
theorem Shelf.loadFrom {p : Place} {run? : Option Run} (hs : Shelf root t id run?)
    (h : find t root = .ok (p, .folder)) (hl : isLoadable id = true) (hn : IsName id) :
    loadFrom root t id = .ok (run?.map Run.toJson) := by
  have hfolder := find_child h hn
  rw [place_of_find h, ← folderOf_of_isLoadable hl, ← runFolder_of_isLoadable hl] at hfolder
  cases run? with
  | some run =>
      rw [hs.above run rfl] at hfolder
      have hfile := find_child hfolder isName_snapshot
      rw [show t.entry (folderOf root id ++ ["run.json"]) = _ from hs.snapshot] at hfile
      have hread := exists?_of_find hfile
      rw [Store.loadFrom, snapshotFile, hread.1, hread.2]
      show (valueOf _).map some = _
      rw [hs.readable run rfl]
      rfl
  | none =>
      have hnothing : exists? t (snapshotFile root id) = .ok false := by
        cases he : t.entry (folderOf root id) with
        | file c => exact absurd he (hs.folder c)
        | nothing =>
            rw [he] at hfolder
            exact exists?_of_absent (absent_child (absent_of_find hfolder) isName_snapshot.no_zero)
        | folder =>
            rw [he] at hfolder
            have hfile := find_child hfolder isName_snapshot
            rw [show t.entry (folderOf root id ++ ["run.json"]) = _ from hs.snapshot] at hfile
            unfold exists? snapshotFile
            rw [hfile]
      exact loadFrom_of_not_exists hnothing

/-- **What is loaded** is the snapshot of the latest run. -/
theorem Holds.loadFrom (h : Holds root t ids earlier) (hid : id ∈ ids) :
    loadFrom root t id = .ok ((latest? isWritable id earlier).map Run.toJson) := by
  obtain ⟨hl, hn⟩ := h.names id hid
  rcases folder_or_absent h.made with ⟨⟨p, hp⟩, e⟩ | ha
  · have hs := h.shelves id hid
    rw [e] at hs
    exact hs.loadFrom hp hl hn
  · rw [h.fresh ha id hid]
    exact loadFrom_of_absent ha hl hn.no_zero

theorem Holds.load (h : Holds root t ids earlier) (hid : id ∈ ids) :
    (folder root t).load id = .ok ((latest? isWritable id earlier).map Run.toJson) := by
  rw [Store.load, if_pos (h.names id hid).1, h.loadFrom hid]

/-- Uses that save nothing change nothing. -/
theorem Holds.of_load (h : Holds root t ids earlier) (hu : ∀ id, u.savedAs? isWritable id = none) :
    Holds root t ids (earlier ++ [u]) := by
  have hlatest (id : String) : latest? isWritable id (earlier ++ [u]) = latest? isWritable id earlier := by
    rw [latest?_concat, hu, Option.none_or]
  refine ⟨h.made, h.names, fun id hid => ?_, fun ha id hid => ?_⟩
  · rw [hlatest]
    exact h.shelves id hid
  · rw [hlatest]
    exact h.fresh ha id hid

/-- Where there is room for a run, the root is there after its save, and on the shelf is the run if it can
    be written; no draft is left then. -/
theorem Shelf.saveTo_self {run? : Option Run} (hmade : (makeFolders t root).1 = .ok ())
    (hs : Shelf root (makeFolders t root).2 run.id run?) (hl : isLoadable run.id = true)
    (hn : IsName run.id) (hp : run.config.Proper) :
    find (Store.saveTo root t run).2 root = .ok (placeFrom [] root.parts, .folder) ∧
      Shelf root (Store.saveTo root t run).2 run.id (if isWritable run then some run else run?) ∧
      (isWritable run = true →
        exists? (Store.saveTo root t run).2 (draftFile root run.id) = .ok false) := by
  obtain ⟨-, hother, hfolder, hdraft, hfile⟩ := saveTo_spec hmade hl hn hs.folder hs.draft hs.snapshot_ne
  -- no folder is lost, so the root is still there
  have hgrow : ∀ q, (makeFolders t root).2.entry q = .folder →
      (Store.saveTo root t run).2.entry q = .folder := by
    intro q hq
    by_cases hF : q = folderOf root run.id
    · rw [hF, hfolder]
    · rw [hother q hF (fun e => hs.draft (e ▸ hq)) (fun e => hs.snapshot_ne (e ▸ hq)), hq]
  have hroot := find_of_folders hgrow (find_made hmade)
  rw [hgrow _ (entry_of_find (find_made hmade)).symm] at hroot
  refine ⟨hroot, ⟨?_, ?_, ?_, fun _ _ => hfolder, ?_⟩, fun hw => ?_⟩
  · rw [hfolder]
    exact fun c => nofun
  · rw [hdraft]
    split <;> exact nofun
  · rw [hfile]
    cases isWritable run with
    | true => rfl
    | false => exact hs.snapshot
  · cases hw : isWritable run with
    | true =>
        rintro run' ⟨⟩
        exact valueOf_indented (Run.proper_toJson hp) hw
    | false => exact hs.readable
  · have hrun := find_child hroot hn
    rw [← folderOf_of_isLoadable hl, ← runFolder_of_isLoadable hl, hfolder] at hrun
    have hnone := find_child hrun isName_draft
    rw [show (Store.saveTo root t run).2.entry (folderOf root run.id ++ ["run.json.tmp"]) = _ from hdraft,
      if_pos hw] at hnone
    unfold exists? draftFile
    rw [hnone]

/-- Where there is room for a run, a save leaves the shelves of other ids as they are. -/
theorem Shelf.saveTo_other {run? run?' : Option Run} (hmade : (makeFolders t root).1 = .ok ())
    (hs : Shelf root (makeFolders t root).2 run.id run?) (hl : isLoadable run.id = true)
    (hn : IsName run.id) (hl' : isLoadable id = true) (hne : id ≠ run.id)
    (hs' : Shelf root (makeFolders t root).2 id run?') : Shelf root (Store.saveTo root t run).2 id run?' := by
  obtain ⟨-, hother, -⟩ := saveTo_spec hmade hl hn hs.folder hs.draft hs.snapshot_ne
  have hne : folderOf root id ≠ folderOf root run.id := mt (folderOf_inj hl' hl).mp hne
  have hplace (name : String) : (Store.saveTo root t run).2.entry (placeOf root id name) =
      (makeFolders t root).2.entry (placeOf root id name) :=
    hother _ (folderOf_ne_placeOf hl hl').symm (fun e => hne (placeOf_inj.mp e).1)
      (fun e => hne (placeOf_inj.mp e).1)
  have hfolder : (Store.saveTo root t run).2.entry (folderOf root id) =
      (makeFolders t root).2.entry (folderOf root id) :=
    hother _ hne (folderOf_ne_placeOf hl' hl) (folderOf_ne_placeOf hl' hl)
  exact ⟨by rw [hfolder]; exact hs'.folder, by rw [hplace]; exact hs'.draft,
    by rw [hplace]; exact hs'.snapshot, by rw [hfolder]; exact hs'.above, hs'.readable⟩

/-- **A save** answers whether the run can be written, and puts it on its shelf then. -/
theorem Holds.saveTo (h : Holds root t ids earlier) (hid : run.id ∈ ids) (hp : run.config.Proper) :
    (saveTo root t run).1 =
        (if isWritable run then .ok () else .error (@SaveFault.badName Json.tooLongMessage)) ∧
      Holds root (saveTo root t run).2 ids (earlier ++ [.save run]) := by
  obtain ⟨hl, hn⟩ := h.names run.id hid
  have hs := h.shelves run.id hid
  obtain ⟨hroot, hself, -⟩ := hs.saveTo_self h.made hl hn hp
  have hmade : makeFolders (Store.saveTo root t run).2 root = (.ok (), (Store.saveTo root t run).2) := by
    refine makeFolders_of_makeFolder ?_
    unfold makeFolder
    rw [hroot]
  refine ⟨(saveTo_spec h.made hl hn hs.folder hs.draft hs.snapshot_ne).1,
    ⟨by rw [hmade], h.names, fun id hid' => ?_, fun ha => ?_⟩⟩
  · rw [hmade, latest?_concat_save]
    by_cases he : run.id = id
    · subst he
      simpa using hself
    · rw [if_neg fun h => he h.1]
      exact hs.saveTo_other h.made hl hn (h.names id hid').1 (Ne.symm he) (h.shelves id hid')
  · have hexists : exists? (Store.saveTo root t run).2 root = .ok true := by
      unfold exists?
      rw [hroot]
    rw [exists?_of_absent ha] at hexists
    cases hexists

/-- **A use** is answered as the table answers it, and the files keep up with the table. -/
theorem Holds.perform (h : Holds root t ids earlier) (hid : u.id ∈ ids)
    (hp : ∀ run, u = .save run → run.config.Proper) :
    ∃ t', (folder root t).perform u = (reply isWritable earlier u, folder root t') ∧
      Holds root t' ids (earlier ++ [u]) := by
  cases u with
  | save run =>
      obtain ⟨hout, hholds⟩ := h.saveTo hid (hp run rfl)
      refine ⟨_, ?_, hholds⟩
      rw [reply, ← hout]
      rfl
  | load id =>
      refine ⟨t, ?_, h.of_load fun _ => rfl⟩
      have hload : (folder root t).load id = _ := h.load hid
      rw [Store.perform, hload]
      rfl
  | change id f =>
      refine ⟨t, ?_, h.of_load fun _ => rfl⟩
      have hload : (folder root t).load id = _ := h.load hid
      rw [Store.perform, hload, reply]
      show (Answer.loaded (.ok (Option.map f (Option.map Run.toJson _))), _) = _
      rw [Option.map_map]
      rfl

/-- **The answers of a folder** are those of the table. -/
theorem Holds.answers (h : Holds root t ids earlier) (hid : ∀ u ∈ uses, u.id ∈ ids)
    (hp : ∀ run, .save run ∈ uses → run.config.Proper) :
    (folder root t).answers uses = replies isWritable earlier uses := by
  induction uses generalizing t earlier with
  | nil => rfl
  | cons u uses ih =>
      obtain ⟨t', hperform, hholds⟩ := h.perform (hid u List.mem_cons_self)
        fun run e => hp run (e ▸ List.mem_cons_self)
      rw [Store.answers, hperform, replies, ih hholds (fun u hu => hid u (List.mem_cons_of_mem _ hu))
        fun run hrun => hp run (List.mem_cons_of_mem _ hrun)]

theorem Holds.after (h : Holds root t ids earlier) (hid : ∀ u ∈ uses, u.id ∈ ids)
    (hp : ∀ run, .save run ∈ uses → run.config.Proper) :
    ∃ t', (folder root t).after uses = folder root t' ∧ Holds root t' ids (earlier ++ uses) := by
  induction uses generalizing t earlier with
  | nil => exact ⟨t, rfl, by rwa [List.append_nil]⟩
  | cons u uses ih =>
      obtain ⟨t', hperform, hholds⟩ := h.perform (hid u List.mem_cons_self)
        fun run e => hp run (e ▸ List.mem_cons_self)
      obtain ⟨t'', hafter, hholds⟩ := ih hholds (fun u hu => hid u (List.mem_cons_of_mem _ hu))
        fun run hrun => hp run (List.mem_cons_of_mem _ hrun)
      refine ⟨t'', ?_, by rwa [List.append_assoc] at hholds⟩
      rw [← hafter, Store.after, List.foldl_cons, hperform]
      rfl

/-- Where there is room for the uses, nothing stands on the shelves at first. -/
theorem Ready.holds (h : Ready root t uses) : Holds root t (uses.map Use.id) [] := by
  have hnames : ∀ id ∈ uses.map Use.id, isLoadable id = true ∧ IsName id := by
    intro id hid
    obtain ⟨u, hu, rfl⟩ := List.mem_map.mp hid
    exact h.names u hu
  refine ⟨h.made, hnames, fun id hid => ?_, fun _ _ _ => rfl⟩
  have hempty (more : List String) :
      (makeFolders t root).2.entry (folderOf root id ++ more) = .nothing := by
    rw [folderOf_of_isLoadable (hnames id hid).1, List.append_assoc]
    obtain ⟨u, hu, rfl⟩ := List.mem_map.mp hid
    exact h.empty u hu more
  have hfolder := hempty []
  rw [List.append_nil] at hfolder
  rw [latest?_nil]
  refine ⟨?_, ?_, hempty _, fun _ h => absurd h (Option.not_mem_none _),
    fun _ h => absurd h (Option.not_mem_none _)⟩
  · rw [hfolder]
    rintro c ⟨⟩
  · rw [placeOf, hempty]
    rintro ⟨⟩

/-! ## 6. Agreement -/

/-- A run is loaded, saved, loaded and changed, saved with an error, and loaded again; another id is
    loaded in between. -/
def sampleUses : List Use :=
  [.load Sample.runId, .save (Sample.run 300000), .change Sample.runId (fun _ => .null),
    .load "elsewhere", .save { Sample.run 300000 with error := some "Fehler: “ä”" }, .load Sample.runId]

end StepRunner.Store
