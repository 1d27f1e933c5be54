import StepRunner.Proofs.Supervisor.Slots
import StepRunner.Proofs.Supervisor.Saves

/-!
# What saves leave in a store

Whatever was saved in a store, and whether it was by this process or an earlier one, the snapshots in it
are those of runs.

* `Store.Filled`: a store that saves have filled, from one without a snapshot;
* `Store.Tells`: every snapshot in a store is that of a run; a save keeps it (`Tells.save`);
* `Store.exists_of_snapshot?`: so is what is loaded from a store that saves have filled;
* `Supervisor.filled_after`: a history of a supervisor goes on filling the store.
-/

namespace StepRunner

open Files

namespace Store

variable {s : Store} {run : Run} {root : Path} {t : Tree} {id : String} {j : Json}

/-! ## 1. Stores that saves have filled -/

/-- A store without a snapshot: nothing in memory, and no file that is called like one. -/
def Blank : Store → Prop
  | .memory snapshots => snapshots = []
  | .folder _ tree => ∀ p c, tree.entry (p ++ ["run.json"]) ≠ .file c

/-- A store that saves have filled, from one without a snapshot. A save that fails may leave a trace
    too. -/
inductive Filled : Store → Prop where
  | blank {s : Store} (h : s.Blank) : Filled s
  | save {s : Store} (h : Filled s) (run : Run) (hp : run.config.Proper) : Filled (s.save run).2

/-! ## 2. What a snapshot file holds -/

/-- A content that reads as the snapshot of a run. -/
def TellsRun (c : Content) : Prop := ∃ run : Run, valueOf c = .ok run.toJson

/-- Every file that is called like a snapshot is one. -/
def TreeTells (t : Tree) : Prop :=
  ∀ p c, t.entry (p ++ ["run.json"]) = .file c → TellsRun c

/-- Every snapshot in the store is that of a run. -/
def Tells : Store → Prop
  | .memory snapshots => ∀ id j, snapshots.lookup id = some j → ∃ run : Run, j = run.toJson
  | .folder _ tree => TreeTells tree

/-- A draft is not called like a snapshot. -/
theorem snapshot_ne_draft (p : Place) : p ++ ["run.json"] ≠ placeOf root id "run.json.tmp" := by
  intro e
  have hlast := congrArg List.getLast? e
  rw [placeOf, List.getLast?_concat, List.getLast?_concat] at hlast
  exact absurd (Option.some.inj hlast) (by decide)

/-- **A save leaves the snapshot of a run**, or no other than there was. -/
theorem treeTells_saveTo (h : TreeTells t) (hp : run.config.Proper) :
    TreeTells (saveTo root t run).2 := by
  intro p c hc
  by_cases hsnap : (saveTo root t run).1 = .ok () ∧ p ++ ["run.json"] = placeOf root run.id "run.json"
  · obtain ⟨hok, hplace⟩ := hsnap
    obtain ⟨t₂, hwritable, -⟩ := saveTo_eq_ok hok
    have hfound := entry_of_find (find_saveTo_self hok)
    rw [← hplace, hc] at hfound
    cases hfound
    exact ⟨run, valueOf_indented (Run.proper_toJson hp) hwritable⟩
  · have hkeeps : Tree.Keeps (p ++ ["run.json"]) t (saveTo root t run).2 :=
      keeps_saveTo (snapshot_ne_draft p) fun hok e => hsnap ⟨hok, e⟩
    exact h p c ((hkeeps.file c).mp hc)

theorem Tells.save (h : s.Tells) (hp : run.config.Proper) : (s.save run).2.Tells := by
  cases s with
  | memory snapshots =>
      intro id j hj
      have hj : (Json.set snapshots run.id run.toJson).lookup id = some j := hj
      rw [Json.lookup_set] at hj
      split at hj
      · cases hj
        exact ⟨run, rfl⟩
      · exact h id j hj
  | folder root tree => exact treeTells_saveTo h hp

theorem Blank.tells (h : s.Blank) : s.Tells := by
  cases s with
  | memory snapshots =>
      obtain rfl : snapshots = [] := h
      exact fun _ _ => nofun
  | folder root tree => exact fun p c hc => absurd hc (h p c)

theorem Filled.tells (h : s.Filled) : s.Tells := by
  induction h with
  | blank h => exact h.tells
  | save _ run hp ih => exact ih.save hp

/-- **What is loaded** from a store that saves have filled is the snapshot of a run. -/
theorem exists_of_snapshot? (h : s.Filled) (hj : s.snapshot? id = some j) :
    ∃ run : Run, j = run.toJson := by
  have htells := h.tells
  obtain ⟨hload, -⟩ := snapshot?_eq_some_iff.mp hj
  cases s with
  | memory snapshots => exact htells id j (Except.ok.inj hload)
  | folder root tree =>
      have hload : (if isLoadable id then loadFrom root tree id else .ok none) = .ok (some j) := hload
      split at hload
      · obtain ⟨p, c, hfind, hvalue⟩ := loadFrom_eq_some_iff.mp hload
        obtain rfl := place_of_find_snapshotFile hfind
        obtain ⟨run, hrun⟩ := htells _ c (entry_of_find hfind).symm
        rw [hvalue] at hrun
        exact ⟨run, Except.ok.inj hrun⟩
      · cases hload

end Store

namespace Supervisor

variable {id : String} {run : Run} {h : List Move}

/-- The configuration of a run in memory is one that was registered. -/
theorem proper_of_held (settings : Settings) (archive : Archive) (now : Instant)
    (hp : ∀ run ∈ Move.registered h, run.config.Proper)
    (hr : ((new settings archive now).after h).run? id = some run) : run.config.Proper :=
  held_induction settings archive now (fun _ _ _ _ ht hc => ht.config_eq ▸ hc)
    (fun run hrun _ => hp run hrun) hr

/-- **A history goes on filling the store.** -/
theorem filled_after (settings : Settings) (archive : Archive) (now : Instant)
    (hf : archive.store.Filled) (hp : ∀ run ∈ Move.registered h, run.config.Proper) :
    ((new settings archive now).after h).archive.store.Filled := by
  induction h using List.reverseRecOn with
  | nil => exact hf
  | append_singleton h m ih =>
      rw [registered_append] at hp
      have hp₀ : ∀ run ∈ Move.registered h, run.config.Proper :=
        fun run hrun => hp run (List.mem_append_left _ hrun)
      have ih := ih hp₀
      rw [after_append]
      show (((new settings archive now).after h).perform m).archive.store.Filled
      rw [archive_perform]
      cases hh : ((new settings archive now).after h).handsOver m with
      | none => exact ih
      | some run =>
          have hproper : run.config.Proper := by
            rcases handsOver_cases hh with ⟨rfl, -⟩ | ⟨o, st, t, -, hst, -, hg, rfl, -⟩
            · exact hp run (List.mem_append_right _ (List.mem_singleton_self run))
            · rw [RunState.config_of_goes hg]
              exact proper_of_held settings archive now hp₀ (run?_of_state? hst)
          rcases Archive.save_cases ((new settings archive now).after h).archive run with
            ⟨-, e⟩ | ⟨-, e⟩
          · rw [e]
            exact ih
          · rw [e]
            exact ih.save run hproper

end Supervisor

end StepRunner
