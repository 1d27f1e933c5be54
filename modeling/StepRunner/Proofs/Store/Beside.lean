import StepRunner.Proofs.Store.Agreement

/-!
# The snapshot of a run, and the files beside it

A store that writes into a folder needs little of it: `Room` says that the folder of the run is there
and that no folder stands where the draft and the snapshot belong. A save of a run that can be written
keeps the room and leaves its snapshot there (`Room.shows_saveTo`). What is read back is the run, whatever
else is written into the folder under another name (`keeps_write`, `Shows.read`).
-/

namespace StepRunner.Store

open Files

variable {root : Path} {t t' : Tree} {id : String} {run : Run}

/-- A path to a folder leads there as long as no folder is lost. -/
theorem find_folder {path : Path} {p : Place} (hg : ∀ q, t.entry q = .folder → t'.entry q = .folder)
    (h : find t path = .ok (p, .folder)) : find t' path = .ok (p, .folder) := by
  rw [find_of_folders hg h, hg p (entry_of_find h).symm]

/-- The files of a run can be written. -/
structure Room (root : Path) (t : Tree) (id : String) : Prop where
  folder : find t (runFolder root id) = .ok (folderOf root id, .folder)
  draft : t.entry (placeOf root id "run.json.tmp") ≠ .folder
  snapshot : t.entry (placeOf root id "run.json") ≠ .folder

/-- The folder of a run holds its snapshot, and there is room for the next. -/
structure Shows (root : Path) (t : Tree) (run : Run) : Prop where
  room : Room root t run.id
  file : t.entry (placeOf root run.id "run.json") = .file (.text run.toJson.indented)

/-- There is room in a folder that could be made, if the draft and the snapshot can be written there. -/
theorem room_of_made {td ts : Tree} {c : Content} (hmade : makeFolders t (runFolder root id) = (.ok (), t'))
    (hdraft : Files.write t' (draftFile root id) c = .ok td)
    (hsnap : Files.write t' (snapshotFile root id) c = .ok ts) : Room root t' id := by
  have hfind := find_made (show (makeFolders t (runFolder root id)).1 = .ok () by rw [hmade])
  rw [hmade] at hfind
  obtain ⟨q, e, hq, hfree, -⟩ := write_eq_ok hdraft
  obtain ⟨q', e', hq', hfree', -⟩ := write_eq_ok hsnap
  obtain rfl := place_of_find_draftFile hq
  obtain rfl := place_of_find_snapshotFile hq'
  exact ⟨hfind, hfree, hfree'⟩

/-- A file that is written into the folder of a run takes its place there. -/
theorem write_beside {name : String} {c : Content} (hn : name ≠ "..")
    (hw : Files.write t ((runFolder root id).child name) c = .ok t') :
    t' = t.addFile (placeOf root id name) c := by
  obtain ⟨q, e, hq, -, rfl⟩ := write_eq_ok hw
  rw [place_of_find hq, placeFrom_child hn]

/-- A file of another name leaves the snapshot alone. -/
theorem keeps_write {name : String} {c : Content} (hn : name ≠ "..") (hsnap : name ≠ "run.json")
    (hw : Files.write t ((runFolder root id).child name) c = .ok t') :
    Tree.Keeps (placeOf root id "run.json") t t' := by
  rw [write_beside hn hw]
  exact Tree.keeps_addFile fun e => hsnap (placeOf_inj.mp e).2.symm

/-- A file of another name takes no room. -/
theorem Room.write {name : String} {c : Content} (h : Room root t id) (hn : name ≠ "..")
    (hdraft : name ≠ "run.json.tmp") (hsnap : name ≠ "run.json")
    (hw : Files.write t ((runFolder root id).child name) c = .ok t') : Room root t' id := by
  rw [write_beside hn hw]
  refine ⟨find_folder (fun _ => Tree.folder_addFile) h.folder, ?_, ?_⟩
  · rw [Tree.entry_addFile_of_ne fun e => hdraft (placeOf_inj.mp e).2.symm]
    exact h.draft
  · rw [Tree.entry_addFile_of_ne fun e => hsnap (placeOf_inj.mp e).2.symm]
    exact h.snapshot

theorem Room.saveTo_eq (h : Room root t run.id) : Store.saveTo root t run =
    if isWritable run then
      (.ok (), ((t.addFile (placeOf root run.id "run.json.tmp") (.text run.toJson.indented)).dropFile
        (placeOf root run.id "run.json.tmp")).addFile (placeOf root run.id "run.json")
          (.text run.toJson.indented))
    else (.error (@SaveFault.badName Json.tooLongMessage),
      t.addFile (placeOf root run.id "run.json.tmp") (.text run.toJson.draft)) := by
  refine Store.saveTo_eq (makeFolders_of_makeFolder ?_) h.draft h.snapshot
  unfold makeFolder
  rw [h.folder]

/-- **A save where there is room** succeeds if the run can be written. -/
theorem Room.saveTo_fst (h : Room root t run.id) : (Store.saveTo root t run).1 =
    if isWritable run then .ok () else .error (@SaveFault.badName Json.tooLongMessage) := by
  rw [h.saveTo_eq]
  split <;> rfl

/-- Then the snapshot is there, and there is room for the next. -/
theorem Room.shows_saveTo (h : Room root t run.id) (hw : isWritable run = true) :
    Shows root (Store.saveTo root t run).2 run := by
  have hne : placeOf root run.id "run.json" ≠ placeOf root run.id "run.json.tmp" := by
    simp [placeOf_inj]
  have hfree : ((t.addFile (placeOf root run.id "run.json.tmp") (.text run.toJson.indented)).dropFile
      (placeOf root run.id "run.json.tmp")).entry (placeOf root run.id "run.json") ≠ .folder := by
    rw [Tree.entry_dropFile_of_ne hne, Tree.entry_addFile_of_ne hne]
    exact h.snapshot
  rw [h.saveTo_eq, if_pos hw]
  refine ⟨⟨find_folder (fun q hq => ?_) h.folder, ?_, ?_⟩, Tree.entry_addFile_self hfree⟩
  · exact Tree.folder_addFile (Tree.folder_dropFile (Tree.folder_addFile hq))
  · rw [Tree.entry_addFile_of_ne hne.symm,
      Tree.entry_dropFile_self (by rw [Tree.entry_addFile_self h.draft]; exact nofun)]
    exact nofun
  · rw [Tree.entry_addFile_self hfree]
    exact nofun

/-- **What is read back** is the run, also after changes that keep the snapshot. -/
theorem Shows.read (h : Shows root t run) (hk : Tree.Keeps (placeOf root run.id "run.json") t t')
    (hp : run.config.Proper) (hw : isWritable run = true) :
    ∃ c, Files.read t' (snapshotFile root run.id) = .ok c ∧ valueOf c = .ok run.toJson := by
  have hfind := find_child (find_folder hk.folders h.room.folder) isName_snapshot
  have hfile : t'.entry (folderOf root run.id ++ ["run.json"]) = _ := (hk.file _).mpr h.file
  rw [hfile] at hfind
  exact ⟨_, (exists?_of_find hfind).2, valueOf_indented (Run.proper_toJson hp) hw⟩

end StepRunner.Store
