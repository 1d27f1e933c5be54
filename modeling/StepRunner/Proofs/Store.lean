import StepRunner.Proofs.Files.Tree
import StepRunner.Proofs.Json.RoundTrip
import StepRunner.Proofs.Text.Occurrence
import StepRunner.Store

/-!
# What a store gives back

* `load_save_self`: the snapshot of a run that was saved is loaded as the run had it then;
* `load_save`: what can be loaded of any other run stays, and so does what can be loaded of the run
  itself where the save fails;
* `snapshot?_save`: where there was nothing to be loaded there still is nothing. In a folder this takes
  that the tree is closed and no double dots lead to it: a folder that is made may let a path arrive that
  led nowhere before.

Of a folder this is for runs whose labels are proper JSON values, and as long as no two ids lead to one
folder (`Store.Separates`). Ids that can be loaded do not (`CanKeep.separates`).
-/

namespace StepRunner

open Files Json Text

/-! ## 1. Snapshots as values -/

/-- The labels are proper JSON values. -/
structure RunConfig.Proper (c : RunConfig) : Prop where
  environment : c.environment.Proper
  aiOptimization : c.aiOptimization.Proper
  baseUrl : c.baseUrl.Proper
  suite : c.suite.Proper

theorem Run.proper_momentJson (t : Option Instant) : (momentJson t).Proper := by
  cases t <;> trivial

theorem TimeLimit.proper_toJson (l : TimeLimit) : l.toJson.Proper := by
  cases l <;> trivial

theorem RunConfig.proper_toJson {c : RunConfig} (h : c.Proper) : c.toJson.Proper := by
  refine ⟨?_, haveProper_iff.mpr ?_⟩
  · show ["parallel", "environment", "aiOptimization", "baseUrl", "suite", "timeout"].Nodup
    decide
  · simp [h.environment, h.aiOptimization, h.baseUrl, h.suite, TimeLimit.proper_toJson, Json.Proper]

theorem RunCounts.proper_toJson (c : RunCounts) : c.toJson.Proper := by
  refine ⟨?_, haveProper_iff.mpr ?_⟩
  · show ["total", "passed", "failed", "pending", "duration"].Nodup
    decide
  · simp [Json.Proper]

theorem Run.proper_caseJson (run : Run) (c : TestCase) : (run.caseJson c).Proper := by
  unfold Run.caseJson
  split
  · refine ⟨?_, haveProper_iff.mpr ?_⟩
    · show ["testCaseId", "title", "status", "duration"].Nodup
      decide
    · simp [Json.Proper]
  · next r hr =>
      refine ⟨?_, haveProper_iff.mpr ?_⟩
      · show ["testCaseId", "title", "status", "duration", "message", "error", "screenshot", "logs",
          "startedAt", "completedAt"].Nodup
        decide
      · have hlogs : AreProper (r.logs.map Json.str) := by
          rw [areProper_iff]
          simp [Json.Proper]
        simp [CaseResult.fields, Json.Proper, proper_ofString?, hlogs]

/-- **The snapshot of a run** is a proper value. -/
theorem Run.proper_toJson {run : Run} (h : run.config.Proper) : run.toJson.Proper := by
  refine ⟨?_, haveProper_iff.mpr ?_⟩
  · show ["id", "project", "status", "config", "results", "testResults", "createdAt", "startedAt",
      "completedAt", "error"].Nodup
    decide
  · have hcases : AreProper (run.testCases.map run.caseJson) := by
      rw [areProper_iff]
      simp [Run.proper_caseJson]
    simp [Json.Proper, RunConfig.proper_toJson h, RunCounts.proper_toJson, hcases,
      Run.proper_momentJson, proper_ofString?]

theorem unifyLineEnds_of_not_mem {cs : List Char} (h : '\r' ∉ cs) : Utf8.unifyLineEnds cs = cs := by
  induction cs with
  | nil => rfl
  | cons c cs ih =>
      rw [List.mem_cons, not_or] at h
      rw [Utf8.unifyLineEnds.eq_3 c cs (fun rest e _ => h.1 e.symm), if_neg (Ne.symm h.1), ih h.2]

/-- **A written snapshot** is read as the value it was written from. -/
theorem Store.valueOf_indented {j : Json} (hp : j.Proper) (hw : j.isWritable = true) :
    valueOf (.text j.indented) = .ok j := by
  have hends : Utf8.unifyLineEnds j.indented.toList = j.indented.toList := by
    refine unifyLineEnds_of_not_mem ?_
    unfold indented
    rw [String.toList_ofList]
    exact return_not_mem_indentedAt j hp 0
  simp only [valueOf, hends, String.ofList_toList, parse_indented hp hw]

theorem Json.lookup_set (fields : List (String × Json)) (key k : String) (j : Json) :
    (set fields key j).lookup k = if k = key then some j else fields.lookup k :=
  lookup_of_put (fun fields => set fields key j) rfl (fun _ _ _ => rfl) fields k

theorem Json.nonNull?_eq_some_iff {j j' : Json} : j.nonNull? = some j' ↔ j = j' ∧ j ≠ .null := by
  cases j <;> simp [nonNull?]

namespace Store

variable {s : Store} {run : Run} {root : Path} {t t' : Tree} {id name : String} {p : Place}
  {j : Json}

/-! ## 2. Names and places -/

/-- The place of the folder of a run. -/
def folderOf (root : Path) (id : String) : Place := placeFrom [] (runFolder root id).parts

/-- The place of a file in the folder of a run. -/
def placeOf (root : Path) (id name : String) : Place := folderOf root id ++ [name]

theorem ne_dots_of_isLoadable (h : isLoadable id = true) : id ≠ ".." := by
  rintro rfl
  cases h

/-- An id that can be loaded is a path of one part. -/
theorem ofString_of_isLoadable (h : isLoadable id = true) : Path.ofString id = ⟨"", [id]⟩ := by
  simp only [isLoadable, Bool.and_eq_true, bne_iff_ne, ne_eq, Bool.not_eq_true',
    List.contains_eq_mem, decide_eq_false_iff_not] at h
  obtain ⟨⟨⟨hempty, hdot⟩, -⟩, hslash⟩ := h
  have hroot : Path.rootOf id.toList = "" := by
    have hnone : id.toList.takeWhile (· == '/') = [] := by
      cases hcs : id.toList with
      | nil => rfl
      | cons c cs =>
          rw [hcs, List.mem_cons, not_or] at hslash
          exact List.takeWhile_cons_of_neg (by simpa using Ne.symm hslash.1)
    unfold Path.rootOf
    rw [hnone]
    rfl
  have hne : id.toList ≠ [] := by simpa using hempty
  have hne' : id.toList ≠ ['.'] := fun h => hdot (String.toList_inj.mp h)
  unfold Path.ofString
  rw [hroot, splitOn_of_not_mem hslash]
  simp [hne, hne']

theorem parts_runFolder (h : isLoadable id = true) :
    (runFolder root id).parts = root.parts ++ [id] := by
  unfold runFolder
  rw [ofString_of_isLoadable h]
  rfl

theorem folderOf_of_isLoadable (h : isLoadable id = true) :
    folderOf root id = placeFrom [] root.parts ++ [id] := by
  rw [folderOf, parts_runFolder h, placeFrom_append]
  exact placeFrom_of_no_dots (by simp [Ne.symm (ne_dots_of_isLoadable h)])

/-- Ids that can be loaded have folders of their own. -/
theorem folderOf_inj {id' : String} (h : isLoadable id = true) (h' : isLoadable id' = true) :
    folderOf root id = folderOf root id' ↔ id = id' := by
  rw [folderOf_of_isLoadable h, folderOf_of_isLoadable h']
  simp

theorem placeFrom_child (hn : name ≠ "..") :
    placeFrom [] ((runFolder root id).child name).parts = placeOf root id name := by
  show placeFrom [] ((runFolder root id).parts ++ [name]) = _
  rw [placeFrom_append]
  exact placeFrom_of_no_dots (by simp [Ne.symm hn])

theorem placeOf_inj {id' name' : String} :
    placeOf root id name = placeOf root id' name' ↔ folderOf root id = folderOf root id' ∧ name = name' := by
  simp [placeOf]

theorem place_of_find_snapshotFile {e : Entry} (h : find t (snapshotFile root id) = .ok (p, e)) :
    p = placeOf root id "run.json" :=
  (place_of_find h).trans (placeFrom_child (by decide))

theorem place_of_find_draftFile {e : Entry} (h : find t (draftFile root id) = .ok (p, e)) :
    p = placeOf root id "run.json.tmp" :=
  (place_of_find h).trans (placeFrom_child (by decide))

/-! ## 3. Saving in a folder -/

/-- What a save that succeeds does: the draft is written and moved into place. -/
theorem saveTo_eq_ok (h : (saveTo root t run).1 = .ok ()) : ∃ t₂, run.toJson.isWritable = true ∧
    write (makeFolders t (runFolder root run.id)).2 (draftFile root run.id)
      (.text run.toJson.indented) = .ok t₂ ∧
    move t₂ (draftFile root run.id) (snapshotFile root run.id) = .ok (saveTo root t run).2 := by
  unfold saveTo at h ⊢
  cases hm : makeFolders t (runFolder root run.id) with
  | mk r t₁ =>
      rw [hm] at h
      cases r with
      | error f => cases h
      | ok u =>
          dsimp only at h ⊢
          cases hw : write t₁ (draftFile root run.id) (.text (draftOf run.toJson)) with
          | error f =>
              rw [hw] at h
              cases h
          | ok t₂ =>
              rw [hw] at h
              dsimp only at h ⊢
              cases hj : run.toJson.isWritable with
              | false =>
                  rw [hj] at h
                  cases h
              | true =>
                  rw [hj, if_pos rfl] at h
                  rw [if_pos rfl]
                  unfold draftOf at hw
                  rw [hj, if_pos rfl] at hw
                  refine ⟨t₂, rfl, hw, ?_⟩
                  cases hmove : move t₂ (draftFile root run.id) (snapshotFile root run.id) with
                  | error f =>
                      rw [hmove] at h
                      cases h
                  | ok t₃ => rfl

/-- What a save does to the tree, step by step: folders are made, the draft is written, and moved into
    place if the save succeeds. -/
theorem saveTo_cases (R : Tree → Prop) (root : Path) (t : Tree) (run : Run)
    (hmake : R (makeFolders t (runFolder root run.id)).2)
    (hwrite : ∀ {t₁ c t₂}, R t₁ → write t₁ (draftFile root run.id) c = .ok t₂ → R t₂)
    (hmove : ∀ {t₁ t₂}, (saveTo root t run).1 = .ok () → R t₁ →
      move t₁ (draftFile root run.id) (snapshotFile root run.id) = .ok t₂ → R t₂) :
    R (saveTo root t run).2 := by
  unfold saveTo at hmove ⊢
  split
  · next h =>
      rw [h] at hmake
      exact hmake
  · next h =>
      rw [h] at hmake hmove
      dsimp only at hmove
      split
      · exact hmake
      · next h =>
          have hdraft := hwrite hmake h
          rw [h] at hmove
          dsimp only at hmove
          split
          · next h =>
              rw [if_pos h] at hmove
              split
              · exact hdraft
              · next h =>
                  rw [h] at hmove
                  exact hmove rfl hdraft h
          · exact hdraft

/-- **A save keeps every file** but the draft of the run, and its snapshot if the save succeeds. -/
theorem keeps_saveTo (hdraft : p ≠ placeOf root run.id "run.json.tmp")
    (hsnap : (saveTo root t run).1 = .ok () → p ≠ placeOf root run.id "run.json") :
    Tree.Keeps p t (saveTo root t run).2 := by
  refine saveTo_cases (Tree.Keeps p t) root t run (keeps_makeFolders p t _) ?_ ?_
  · intro t₁ c t₂ hk hw
    obtain ⟨q, e, hq, -, rfl⟩ := write_eq_ok hw
    rw [place_of_find_draftFile hq]
    exact hk.trans (Tree.keeps_addFile hdraft)
  · intro t₁ t₂ hok hk hm
    obtain ⟨q, c, q', e, hq, hq', -, rfl⟩ := move_eq_ok hm
    rw [place_of_find_draftFile hq, place_of_find_snapshotFile hq']
    exact (hk.trans (Tree.keeps_dropFile hdraft)).trans (Tree.keeps_addFile (hsnap hok))

theorem closed_saveTo (hc : t.Closed) (root : Path) (run : Run) : (saveTo root t run).2.Closed := by
  refine saveTo_cases Tree.Closed root t run (closed_makeFolders hc _) ?_ ?_
  · intro t₁ c t₂ hc hw
    obtain ⟨q, e, hq, -, rfl⟩ := write_eq_ok hw
    exact Tree.closed_addFile hc (folder_above_find hc hq)
  · intro t₁ t₂ hok hc hm
    obtain ⟨q, c, q', e, hq, hq', -, rfl⟩ := move_eq_ok hm
    exact Tree.closed_addFile (Tree.closed_dropFile hc) (Tree.folder_dropFile (folder_above_find hc hq'))

/-- **A save that succeeds** leaves the written snapshot in its place. -/
theorem find_saveTo_self (h : (saveTo root t run).1 = .ok ()) :
    find (saveTo root t run).2 (snapshotFile root run.id) =
      .ok (placeOf root run.id "run.json", .file (.text run.toJson.indented)) := by
  obtain ⟨t₂, -, hw, hm⟩ := saveTo_eq_ok h
  obtain ⟨q, e, hq, hqf, rfl⟩ := write_eq_ok hw
  obtain ⟨r, c, r', e', hr, hr', hrf, ht⟩ := move_eq_ok hm
  -- what is moved is the draft that was just written
  have hc : Entry.file c = .file (.text run.toJson.indented) := by
    rw [entry_of_find hr, place_of_find_draftFile hr, ← place_of_find_draftFile hq]
    exact Tree.entry_addFile_self hqf
  obtain rfl := place_of_find_snapshotFile hr'
  rw [ht, ← hc]
  have hgrow : ∀ q', ((makeFolders t (runFolder root run.id)).2.addFile q
      (.text run.toJson.indented)).entry q' = .folder → _ := fun q' hq' =>
    Tree.folder_addFile (c := c) (q := placeOf root run.id "run.json") (Tree.folder_dropFile (q := r) hq')
  rw [find_of_folders hgrow hr', Tree.entry_addFile_self]
  rwa [Ne, Tree.entry_eq_folder_iff] at hrf ⊢

/-! ## 4. Loading from a folder -/

theorem map_some_eq_ok {α ε : Type*} {x : Except ε α} {a : α} :
    x.map some = .ok (some a) ↔ x = .ok a := by
  cases x <;> simp [Except.map]

/-- A snapshot is loaded exactly from the file in its place. -/
theorem loadFrom_eq_some_iff : loadFrom root t id = .ok (some j) ↔
    ∃ p c, find t (snapshotFile root id) = .ok (p, .file c) ∧ valueOf c = .ok j := by
  unfold loadFrom exists? Files.read
  cases hf : find t (snapshotFile root id) with
  | error f =>
      refine ⟨fun h => ?_, fun ⟨p, c, h, _⟩ => nomatch h⟩
      cases f with
      | path cause text => cases cause <;> cases h
      | move => cases h
      | zeroCharacter => cases h
  | ok found =>
      obtain ⟨p, e⟩ := found
      cases e with
      | folder => exact ⟨nofun, fun ⟨p, c, h, _⟩ => nomatch h⟩
      | nothing => exact ⟨nofun, fun ⟨p, c, h, _⟩ => nomatch h⟩
      | file c =>
          show (valueOf c).map some = _ ↔ _
          rw [map_some_eq_ok]
          refine ⟨fun h => ⟨p, c, rfl, h⟩, ?_⟩
          rintro ⟨p', c', h, hv⟩
          cases h
          exact hv

/-- What can be loaded can still be loaded where the file is kept. -/
theorem loadFrom_of_keeps (hk : Tree.Keeps (placeOf root id "run.json") t t')
    (h : loadFrom root t id = .ok (some j)) : loadFrom root t' id = .ok (some j) := by
  rw [loadFrom_eq_some_iff] at h ⊢
  obtain ⟨p, c, hf, hv⟩ := h
  obtain rfl := place_of_find_snapshotFile hf
  refine ⟨placeOf root id "run.json", c, ?_, hv⟩
  rw [find_of_folders hk.folders hf, (hk.file c).mpr (entry_of_find hf).symm]

/-- In a closed tree nothing else can be loaded then. -/
theorem loadFrom_iff_of_keeps (hl : isLoadable id = true) (hdots : ".." ∉ root.parts)
    (hc : t.Closed) (hk : Tree.Keeps (placeOf root id "run.json") t t') :
    loadFrom root t' id = .ok (some j) ↔ loadFrom root t id = .ok (some j) := by
  refine ⟨fun h => ?_, loadFrom_of_keeps hk⟩
  rw [loadFrom_eq_some_iff] at h ⊢
  obtain ⟨p, c, hf, hv⟩ := h
  obtain rfl := place_of_find_snapshotFile hf
  have he : t.entry _ = .file c := (hk.file c).mp (entry_of_find hf).symm
  refine ⟨placeOf root id "run.json", c, ?_, hv⟩
  rw [← he]
  refine find_of_closed hc ?_ hf (by rw [he]; exact nofun)
  show ".." ∉ (runFolder root id).parts ++ ["run.json"]
  rw [parts_runFolder hl]
  simp [hdots, Ne.symm (ne_dots_of_isLoadable hl)]

/-! ## 5. Saving and loading -/

/-- The store loads what was saved under the id. -/
def canLoad (id : String) : Store → Bool
  | .memory _ => true
  | .folder _ _ => isLoadable id

/-- The store can load the run again: a folder does so if the id is the name of a folder of its own and
    the labels are proper. -/
def CanKeep (run : Run) : Store → Prop
  | .memory _ => True
  | .folder _ _ => isLoadable run.id = true ∧ run.config.Proper

/-- The store does not mix up an id that it loads with the run: if the folder of the run is that of the
    id, then the id is its own, and its labels are proper. -/
def Separates (id : String) (run : Run) : Store → Prop
  | .memory _ => True
  | .folder root _ => isLoadable id = true → folderOf root run.id = folderOf root id →
      run.id = id ∧ run.config.Proper

/-- No path leads to the folder only once other folders are made. -/
def Orderly : Store → Prop
  | .memory _ => True
  | .folder root tree => tree.Closed ∧ ".." ∉ root.parts

/-- A folder in an empty tree is in order. -/
example : (Store.folder (Path.ofString "var/runs") {}).Orderly := ⟨Tree.closed_empty, by decide⟩

/-- Whether a store can keep a run is told by its id and its configuration. -/
theorem CanKeep.congr {run' : Run} (h : s.CanKeep run) (hid : run'.id = run.id)
    (hc : run'.config = run.config) : s.CanKeep run' := by
  cases s with
  | memory snapshots => trivial
  | folder root tree => exact ⟨hid ▸ h.1, hc ▸ h.2⟩

theorem CanKeep.canLoad (h : s.CanKeep run) : s.canLoad run.id = true := by
  cases s with
  | memory snapshots => rfl
  | folder root tree => exact h.1

/-- A run that can be kept is mixed up with no other. -/
theorem CanKeep.separates (h : s.CanKeep run) (id : String) : s.Separates id run := by
  cases s with
  | memory snapshots => trivial
  | folder root tree => exact fun hl e => ⟨(folderOf_inj h.1 hl).mp e, h.2⟩

theorem Separates.congr {run' : Run} (h : s.Separates id run) (hid : run'.id = run.id)
    (hc : run'.config = run.config) : s.Separates id run' := by
  cases s with
  | memory snapshots => trivial
  | folder root tree =>
      intro hl e
      rw [hid] at e ⊢
      rw [hc]
      exact h hl e

/-- Which ids and runs a store loads, keeps and tells apart is not up to what is saved. -/
theorem frame_save (s : Store) (run : Run) :
    (∀ id, (s.save run).2.canLoad id = s.canLoad id) ∧
    (∀ run', (s.save run).2.CanKeep run' ↔ s.CanKeep run') ∧
    ∀ id run', (s.save run).2.Separates id run' ↔ s.Separates id run' := by
  cases s <;> exact ⟨fun _ => rfl, fun _ => Iff.rfl, fun _ _ => Iff.rfl⟩

theorem Orderly.save (h : s.Orderly) (run : Run) : (s.save run).2.Orderly := by
  cases s with
  | memory snapshots => trivial
  | folder root t => exact ⟨closed_saveTo h.1 root run, h.2⟩

/-- **A run that was saved** is loaded as it was then. -/
theorem load_save_self (hl : s.canLoad run.id = true) (hk : s.Separates run.id run)
    (h : (s.save run).1 = .ok ()) : (s.save run).2.load run.id = .ok (some run.toJson) := by
  cases s with
  | memory snapshots =>
      show Except.ok ((Json.set snapshots run.id run.toJson).lookup run.id) = _
      rw [lookup_set, if_pos rfl]
  | folder root t =>
      have hl : isLoadable run.id = true := hl
      obtain ⟨-, hp⟩ := hk hl rfl
      have h : (saveTo root t run).1 = .ok () := h
      obtain ⟨-, hw, -⟩ := saveTo_eq_ok h
      show (if isLoadable run.id then loadFrom root (saveTo root t run).2 run.id else _) = _
      rw [if_pos hl, loadFrom_eq_some_iff]
      exact ⟨_, _, find_saveTo_self h, valueOf_indented (Run.proper_toJson hp) hw⟩

/-- **What can be loaded stays**, but for the run that is saved. -/
theorem load_save (hk : s.Separates id run) (h : run.id = id → (s.save run).1 ≠ .ok ())
    (hj : s.load id = .ok (some j)) : (s.save run).2.load id = .ok (some j) := by
  cases s with
  | memory snapshots =>
      have hid : id ≠ run.id := fun e => h e.symm rfl
      show Except.ok ((Json.set snapshots run.id run.toJson).lookup id) = _
      rw [lookup_set, if_neg hid]
      exact hj
  | folder root t =>
      simp only [load, save] at hj ⊢
      split at hj
      · next hl =>
          rw [if_pos hl]
          refine loadFrom_of_keeps (keeps_saveTo ?_ fun hok e => ?_) hj
          · simp [placeOf_inj]
          · exact h (hk hl (placeOf_inj.mp e).1.symm).1 hok
      · cases hj

theorem snapshot?_eq_some_iff : s.snapshot? id = some j ↔ s.load id = .ok (some j) ∧ j ≠ .null := by
  unfold snapshot?
  split
  · next j' h =>
      rw [nonNull?_eq_some_iff, h]
      simp only [Except.ok.injEq, Option.some.injEq]
      exact ⟨fun ⟨e, hn⟩ => ⟨e, e ▸ hn⟩, fun ⟨e, hn⟩ => ⟨e, e ▸ hn⟩⟩
  · next h => exact ⟨nofun, fun ⟨e, _⟩ => absurd e (h j)⟩

/-- Under other ids nothing is loaded. -/
theorem snapshot?_of_not_canLoad (h : s.canLoad id = false) : s.snapshot? id = none := by
  cases s with
  | memory snapshots => cases h
  | folder root t =>
      have h : isLoadable id = false := h
      simp only [snapshot?, load, h, Bool.false_eq_true, if_false]

/-- What is loaded was saved under an id that the store loads. -/
theorem canLoad_of_load (h : s.load id = .ok (some j)) : s.canLoad id = true := by
  cases s with
  | memory snapshots => rfl
  | folder root t =>
      simp only [load] at h
      split at h
      · assumption
      · cases h

/-- **No other snapshot appears** in a store that is in order. -/
theorem snapshot?_save (ho : s.Orderly) (hk : s.Separates id run)
    (h : run.id = id → (s.save run).1 ≠ .ok ()) : (s.save run).2.snapshot? id = s.snapshot? id := by
  have hload (j : Json) : (s.save run).2.load id = .ok (some j) ↔ s.load id = .ok (some j) := by
    refine ⟨fun hj => ?_, load_save hk h⟩
    cases s with
    | memory snapshots =>
        have hid : id ≠ run.id := fun e => h e.symm rfl
        have hj : Except.ok ((Json.set snapshots run.id run.toJson).lookup id) = .ok (some j) := hj
        rw [lookup_set, if_neg hid] at hj
        exact hj
    | folder root t =>
        simp only [load, save] at hj ⊢
        split at hj
        · next hl =>
            rw [if_pos hl]
            refine (loadFrom_iff_of_keeps hl ho.2 ho.1 (keeps_saveTo ?_ fun hok e => ?_)).mp hj
            · simp [placeOf_inj]
            · exact h (hk hl (placeOf_inj.mp e).1.symm).1 hok
        · cases hj
  ext j
  rw [snapshot?_eq_some_iff, snapshot?_eq_some_iff, hload]

end Store

end StepRunner
