import StepRunner.Proofs.Supervisor.Memory
import StepRunner.Proofs.Sample

/-!
# Refused registrations

A request to take over a run, or to start it, is refused at one of several points: its state tells, the
store breaks when it is asked for a snapshot, the id is known, or the save breaks. The run joins memory
before it is saved, and nobody takes it out again.

* `Supervisor.registerAsking`, `Supervisor.launchAsking`: the two requests with any answer of the store, also
  one that breaks them off;
* `LeftBehind`: what a broken save leaves;
* `refused_leaves`: everything else that refuses a request leaves the supervisor as it was.
-/

namespace StepRunner.Supervisor

variable {ε : Type} {s s' : Supervisor} {run : Run} {id : String}

/-! ## 1. Requests to a store that may break -/

/-- Takes over a run, as the store answers when it is asked for a snapshot of it. -/
def registerAsking (s : Supervisor) (run : Run) (asked : Except ε (Option Json)) :
    Except (ε ⊕ Refusal) Unit × Supervisor :=
  if run.status ≠ .pending then (.error (.inr (.notPending run.id run.status)), s)
  else
    match asked with
    | .error broken => (.error (.inl broken), s)
    | .ok snapshot? =>
      if snapshot?.isSome || (s.state? run.id).isSome then
        (.error (.inr (.alreadyRegistered run.id)), s)
      else
        match { s with runs := s.runs ++ [{ run }] : Supervisor }.persist run with
        | (some fault, s) => (.error (.inr (.save fault)), s)
        | (none, s) => (.ok (), s.tell [.registered run])

/-- Asks for the dispatch of a run, which is taken over first where it is not in memory. -/
def launchAsking (s : Supervisor) (run : Run) (asked : Except ε (Option Json)) :
    Except (ε ⊕ Refusal) Unit × Supervisor :=
  if (s.state? run.id).isSome then ((s.launchKnown run.id).1.mapError .inr, (s.launchKnown run.id).2)
  else
    match s.registerAsking run asked with
    | (.error refusal, s) => (.error refusal, s)
    | (.ok _, s) => ((s.launchKnown run.id).1.mapError .inr, (s.launchKnown run.id).2)

/-- The archive never breaks a request when it is asked. -/
theorem registerAsking_snapshot? (s : Supervisor) (run : Run) :
    s.registerAsking run (.ok (s.archive.snapshot? run.id) : Except ε _) =
      ((s.register run).1.mapError .inr, (s.register run).2) := by
  unfold registerAsking register knows
  split
  · rfl
  · dsimp only
    split
    · rfl
    · generalize { s with runs := s.runs ++ [{ run }] : Supervisor }.persist run = p
      rcases p with ⟨_ | fault, s'⟩ <;> rfl

theorem launchAsking_snapshot? (s : Supervisor) (run : Run) :
    s.launchAsking run (.ok (s.archive.snapshot? run.id) : Except ε _) =
      ((s.launch run).1.mapError .inr, (s.launch run).2) := by
  unfold launchAsking launch
  split
  · rfl
  · rw [registerAsking_snapshot?]
    generalize s.register run = p
    rcases p with ⟨refusal | ⟨⟩, s'⟩ <;> rfl

/-! ## 2. What a broken save leaves -/

/-- The run is in memory though the request was refused, and it is refused from now on, as long as it is
    there. -/
structure LeftBehind (s s' : Supervisor) (run : Run) : Prop where
  pending : run.status = .pending
  unknown : s.state? run.id = none
  runs : s'.runs = s.runs ++ [{ run := run }]
  retired : s'.retired = s.retired
  evicted : s'.evicted = s.evicted
  broadcaster : s'.broadcaster = s.broadcaster
  refused : ∀ h, ((s'.after h).run? run.id).isSome →
    ((s'.after h).register run).1 = .error (.alreadyRegistered run.id)

theorem register_of_run? (hp : run.status = .pending) (h : (s.run? run.id).isSome = true) :
    (s.register run).1 = .error (.alreadyRegistered run.id) := by
  have hknown : s.knows run.id = true := by
    unfold knows
    rw [run?, Option.isSome_map] at h
    rw [h, Bool.or_true]
  unfold register
  rw [if_neg (by simp [hp]), if_pos hknown]

/-- A run that is not known is added to memory, whether or not its save breaks. -/
theorem persist_appended (s : Supervisor) (run : Run) :
    let s' := ({ s with runs := s.runs ++ [{ run }] : Supervisor }.persist run).2
    s'.runs = s.runs ++ [{ run := run }] ∧ s'.retired = s.retired ∧ s'.evicted = s.evicted ∧
      s'.broadcaster = s.broadcaster := by
  obtain ⟨archive, journal, e⟩ := persist_frame { s with runs := s.runs ++ [{ run }] } run
  rw [e]
  exact ⟨rfl, rfl, rfl, rfl⟩

/-- How a request to take over a run is refused. -/
theorem registerAsking_eq_error {asked : Except ε (Option Json)} {refusal : ε ⊕ Refusal}
    (h : s.registerAsking run asked = (.error refusal, s')) :
    ((∀ fault, refusal ≠ .inr (.save fault)) ∧ s' = s) ∨
      (∃ fault, refusal = .inr (.save fault) ∧ (s.persist run).1 = some fault) ∧
        s.LeftBehind s' run := by
  unfold registerAsking at h
  split at h
  · cases h
    exact .inl ⟨nofun, rfl⟩
  · rename_i hpending
    rw [not_not] at hpending
    split at h
    · cases h
      exact .inl ⟨nofun, rfl⟩
    · split at h
      · cases h
        exact .inl ⟨nofun, rfl⟩
      · rename_i hunknown
        obtain ⟨hruns, hretired, hevicted, hbroadcaster⟩ := persist_appended s run
        split at h
        · rename_i fault s₁ hpersist
          cases h
          have hbroke := persist_fst s { s with runs := s.runs ++ [{ run }] } rfl run
          rw [hpersist] at hruns hretired hevicted hbroadcaster hbroke
          exact .inr ⟨⟨fault, rfl, hbroke.symm⟩, hpending, by simp_all, hruns, hretired, hevicted, hbroadcaster,
            fun h hin => register_of_run? hpending hin⟩
        · cases h

/-- A run that was just taken over can be launched. -/
theorem launchKnown_of_registerAsking {asked : Except ε (Option Json)}
    (h : s.registerAsking run asked = (.ok (), s')) : (s'.launchKnown run.id).1 = .ok () := by
  have hstate : s'.state? run.id = some { run := run } := by
    unfold registerAsking at h
    split at h
    · cases h
    · split at h
      · cases h
      · split at h
        · cases h
        · rename_i hunknown
          have hnone : s.state? run.id = none := by simp_all
          obtain ⟨archive, journal, e⟩ := persist_frame { s with runs := s.runs ++ [{ run }] } run
          split at h
          · cases h
          · rename_i s₁ hpersist
            cases h
            rw [hpersist] at e
            cases e
            refine (state?_append s run).trans ?_
            rw [hnone, if_pos rfl, Option.none_or]
  unfold launchKnown
  rw [hstate]
  rfl

theorem launchKnown_eq_error {refusal : Refusal} (h : (s.launchKnown id).1 = .error refusal) :
    (∀ fault, refusal ≠ .save fault) ∧ (s.launchKnown id).2 = s := by
  unfold launchKnown at h ⊢
  cases hstate : s.state? id with
  | none =>
      rw [hstate] at h
      cases h
      exact ⟨nofun, rfl⟩
  | some st =>
      rw [hstate] at h
      dsimp only at h ⊢
      split at h
      · cases h
      · rename_i hidle
        cases h
        exact ⟨nofun, by rw [if_neg hidle]⟩

/-! ## 3. Refusals -/

theorem launchAsking_eq_error {asked : Except ε (Option Json)} {refusal : ε ⊕ Refusal}
    (h : (s.launchAsking run asked).1 = .error refusal) :
    ((∀ fault, refusal ≠ .inr (.save fault)) ∧ (s.launchAsking run asked).2 = s) ∨
      (∃ fault, refusal = .inr (.save fault) ∧ (s.persist run).1 = some fault) ∧
        s.LeftBehind (s.launchAsking run asked).2 run := by
  unfold launchAsking at h ⊢
  split
  · rename_i hin
    rw [if_pos hin] at h
    cases hlaunch : (s.launchKnown run.id).1 with
    | ok _ =>
        rw [hlaunch] at h
        cases h
    | error r =>
        rw [hlaunch] at h
        cases h
        obtain ⟨hr, hstays⟩ := launchKnown_eq_error hlaunch
        exact .inl ⟨fun fault e => hr fault (Sum.inr.inj e), hstays⟩
  · rename_i hout
    rw [if_neg hout] at h
    cases hregister : s.registerAsking run asked with
    | mk o s₁ =>
        rw [hregister] at h
        cases o with
        | error r =>
            cases h
            exact registerAsking_eq_error hregister
        | ok _ =>
            dsimp only at h
            rw [launchKnown_of_registerAsking hregister] at h
            cases h

/-- **What a refused request leaves.** Whatever the store does when it is asked, a request to take over a run
    or to start it that is refused leaves the supervisor as it was, unless it is the save that broke: then
    the run is left behind in memory. A store that answers leads to the same as the archive. -/
theorem refused_leaves (s : Supervisor) (run : Run) (asked : Except ε (Option Json)) :
    (∀ answer ∈ [s.registerAsking run asked, s.launchAsking run asked], ∀ refusal,
      answer.1 = .error refusal →
        ((∀ fault, refusal ≠ .inr (.save fault)) ∧ answer.2 = s) ∨
          (∃ fault, refusal = .inr (.save fault) ∧ (s.persist run).1 = some fault) ∧
            s.LeftBehind answer.2 run) ∧
    s.registerAsking run (.ok (s.archive.snapshot? run.id) : Except ε _) =
      ((s.register run).1.mapError .inr, (s.register run).2) ∧
    s.launchAsking run (.ok (s.archive.snapshot? run.id) : Except ε _) =
      ((s.launch run).1.mapError .inr, (s.launch run).2) := by
  refine ⟨fun answer hanswer refusal h => ?_, registerAsking_snapshot? s run, launchAsking_snapshot? s run⟩
  rcases List.mem_pair.mp hanswer with rfl | rfl
  · exact registerAsking_eq_error (Prod.ext h rfl)
  · exact launchAsking_eq_error h

/-- A supervisor whose first save breaks. -/
def brokenAtFirst : Supervisor := Sample.supervisor 1 fun k => if k = 1 then some (.crashed "broken") else none

/-- **A run is left behind** whose save breaks: it is in memory, and the next request is refused since it
    is there. -/
theorem left_behind_of_broken_save :
    (brokenAtFirst.register (Sample.run 1000)).1 = .error (.save (.crashed "broken")) ∧
      brokenAtFirst.LeftBehind (brokenAtFirst.register (Sample.run 1000)).2 (Sample.run 1000) ∧
      ((brokenAtFirst.register (Sample.run 1000)).2.register (Sample.run 1000)).1 =
        .error (.alreadyRegistered Sample.runId) := by
  have hrefused : (brokenAtFirst.register (Sample.run 1000)).1 = .error (.save (.crashed "broken")) := rfl
  obtain ⟨hleaves, hsame, -⟩ := refused_leaves (ε := Empty) brokenAtFirst (Sample.run 1000)
    (.ok (brokenAtFirst.archive.snapshot? (Sample.run 1000).id))
  rw [hsame] at hleaves
  rcases hleaves _ List.mem_cons_self _ (by rw [hrefused]; rfl) with ⟨hnot, -⟩ | ⟨-, hleft⟩
  · exact absurd rfl (hnot _)
  · exact ⟨hrefused, hleft, hleft.refused [] (by decide +kernel)⟩

end StepRunner.Supervisor
