import Mathlib.Data.List.Basic
import Mathlib.Logic.Basic
import StepRunner.Supervisor.History

/-!
# What a change does to a supervisor

A change is carried out by `Supervisor.take`. Its effect is fixed once and for all by these facts, and
no later proof opens `take` again:

* `state?_take`: the run that changed has its new state `outcome`, every other run is as it was, and
  the ids in `departing` leave memory, if the change puts its run to rest;
* `broadcaster_take`: the observers are told the news, unless the save broke;
* `evicted_take`: those leave it as they are then;
* `retired_take`: what the queue for eviction holds afterwards.
-/

namespace StepRunner.Supervisor

variable {s : Supervisor} {id k : String} {st : RunState} {t : Change}

/-! ## 1. Looking up -/

theorem id_of_state? (h : s.state? id = some st) : st.run.id = id := by
  simpa using List.find?_some h

theorem state?_update {f : RunState → RunState} (hf : ∀ st, st.run.id = id → (f st).run.id = id) :
    (s.update id f).state? k = if k = id then (s.state? k).map f else s.state? k := by
  unfold state? update
  rw [List.find?_map]
  have e : ((fun st : RunState => st.run.id == k) ∘ fun st => if st.run.id = id then f st else st) =
      fun st => st.run.id == k := by
    funext st
    by_cases h : st.run.id = id <;> simp [h, hf]
  rw [e]
  split
  · next h =>
      subst h
      refine Option.map_congr fun st hst => ?_
      simp [id_of_state? hst]
  · next h =>
      refine (Option.map_congr fun st hst => ?_).trans Option.map_id'
      simp [id_of_state? (s := s) hst, h]

theorem state?_put : (s.put st).state? k =
    if k = st.run.id then (s.state? k).map fun _ => st else s.state? k :=
  state?_update fun _ _ => rfl

theorem state?_put_self (h : (s.state? st.run.id).isSome) :
    (s.put st).state? st.run.id = some st := by
  obtain ⟨st₀, h₀⟩ := Option.isSome_iff_exists.mp h
  rw [state?_put, if_pos rfl, h₀]
  rfl

theorem state?_put_of_ne (h : k ≠ st.run.id) : (s.put st).state? k = s.state? k := by
  rw [state?_put, if_neg h]

theorem isNone_state?_put : ((s.put st).state? k).isNone = (s.state? k).isNone := by
  rw [state?_put]
  split <;> simp

/-! ## 2. Saving -/

/-- A save touches the archive and the journal. -/
theorem persist_frame (s : Supervisor) (run : Run) :
    ∃ archive journal, (s.persist run).2 = { s with archive, journal } := by
  unfold persist
  split
  · exact ⟨_, _, rfl⟩
  · exact ⟨_, _, rfl⟩
  · exact ⟨_, _, rfl⟩

theorem keep_frame (s : Supervisor) (t : Change) :
    ∃ archive journal, (s.keep t).2 = { s with archive, journal } := by
  unfold keep
  split
  · exact persist_frame s _
  · exact ⟨_, _, rfl⟩

/-- Whether a save breaks is up to the archive alone. -/
theorem persist_fst (s s' : Supervisor) (h : s'.archive = s.archive) (run : Run) :
    (s'.persist run).1 = (s.persist run).1 := by
  unfold persist
  rw [h]
  split <;> rfl

theorem keep_fst (s s' : Supervisor) (h : s'.archive = s.archive) (t : Change) :
    (s'.keep t).1 = (s.keep t).1 := by
  unfold keep
  split
  · exact persist_fst s s' h _
  · rfl

/-! ## 3. Runs at rest -/

/-- The ids that leave memory as a run is put to rest. -/
def departing (s : Supervisor) (id : String) : List String :=
  if s.retired.contains id || (s.state? id).isNone then []
  else (s.retired ++ [id]).take ((s.retired ++ [id]).length - s.retention)

theorem mem_departing (h : k ∈ s.departing id) : k ∈ s.retired ∨ k = id := by
  unfold departing at h
  split at h
  · cases h
  · simpa using List.mem_of_mem_take h

/-- A run that is put to rest stays, if any run at rest does. -/
theorem not_mem_departing_self (hr : 0 < s.retention) : id ∉ s.departing id := by
  unfold departing
  split
  · exact List.not_mem_nil
  · next hc =>
      have hid : id ∉ s.retired := fun h => hc (by simp [h])
      have hfew : (s.retired ++ [id]).length - s.retention ≤ s.retired.length := by
        rw [List.length_append, List.length_singleton]
        omega
      rw [List.take_append_of_le_length hfew]
      exact fun h => hid (List.mem_of_mem_take h)

theorem departing_congr {s' : Supervisor} (hr : s'.retired = s.retired)
    (hs : s'.settings = s.settings) (hi : (s'.state? id).isNone = (s.state? id).isNone) :
    s'.departing id = s.departing id := by
  unfold departing retention
  rw [hr, hs, hi]

theorem state?_evict : s.evict.state? k =
    if k ∈ s.retired.take (s.retired.length - s.retention) then none else s.state? k := by
  unfold state? evict
  simp only [List.find?_filter]
  split
  · next h =>
      rw [List.find?_eq_none]
      intro st _
      simp only [Bool.not_eq_true', List.contains_eq_mem, decide_eq_false_iff_not, beq_iff_eq,
        decide_eq_true_eq, not_and]
      rintro hst rfl
      exact hst h
  · next h =>
      congr 1
      funext st
      by_cases hk : st.run.id = k <;> simp [hk, h]

theorem state?_retire :
    (s.retire id).state? k = if k ∈ s.departing id then none else s.state? k := by
  unfold retire departing
  split
  · simp
  · exact state?_evict

theorem nodup_queue (hn : s.retired.Nodup)
    (hc : ¬ (s.retired.contains id || (s.state? id).isNone)) : (s.retired ++ [id]).Nodup := by
  have hid : id ∉ s.retired := fun h => hc (by simp [h])
  refine List.nodup_append.mpr ⟨hn, by simp, ?_⟩
  rintro a ha b hb rfl
  rw [List.mem_singleton] at hb
  exact hid (hb ▸ ha)

/-- What is in the queue afterwards was in it, or is the run itself, and has not left. -/
theorem mem_retired_retire (hn : s.retired.Nodup) (h : k ∈ (s.retire id).retired) :
    (k ∈ s.retired ∨ k = id) ∧ k ∉ s.departing id := by
  unfold retire at h
  unfold departing
  split at h
  · next hc => exact ⟨.inl h, by rw [if_pos hc]; exact List.not_mem_nil⟩
  · next hc =>
      have hk : k ∈ (s.retired ++ [id]).drop ((s.retired ++ [id]).length - s.retention) := h
      refine ⟨by simpa using List.mem_of_mem_drop hk, ?_⟩
      rw [if_neg hc]
      intro ht
      have hq := nodup_queue hn hc
      rw [← List.take_append_drop ((s.retired ++ [id]).length - s.retention) (s.retired ++ [id])] at hq
      exact (List.nodup_append.mp hq).2.2 k ht k hk rfl

theorem nodup_retired_retire (hn : s.retired.Nodup) : (s.retire id).retired.Nodup := by
  unfold retire
  split
  · exact hn
  · next hc => exact (List.drop_sublist _ _).nodup (nodup_queue hn hc)

/-- What leaves memory is kept as it is then. -/
theorem evicted_retire :
    (s.retire id).evicted = s.evicted ++ (s.departing id).filterMap s.state? := by
  unfold retire departing
  split
  · simp
  · rfl

theorem broadcaster_retire : (s.retire id).broadcaster = s.broadcaster := by
  unfold retire
  split <;> rfl

/-- The supervisor in which nobody has to wait for a run any more. -/
def released (s : Supervisor) (id : String) : Supervisor :=
  s.update id fun st => { st with done := st.done || s.canRetain }

theorem state?_released : (s.released id).state? k =
    if k = id then (s.state? k).map fun st => { st with done := st.done || s.canRetain }
    else s.state? k :=
  state?_update fun _ h => h

/-! ## 4. Changes -/

/-- The state that a change leads to, where its run stays in memory. -/
def outcome (s : Supervisor) (t : Change) : RunState :=
  match (s.keep t).1 with
  | some fault => { t.next with dispatch := t.ifBroken fault }
  | none => if t.leaves then { t.next with done := t.next.done || s.canRetain } else t.next

@[simp] theorem run_outcome : (s.outcome t).run = t.next.run := by
  unfold outcome
  split
  · rfl
  · split <;> rfl

theorem dispatch_outcome_of_fault {fault : SaveFault} (h : (s.keep t).1 = some fault) :
    (s.outcome t).dispatch = t.ifBroken fault := by
  unfold outcome
  rw [h]

theorem dispatch_outcome_of_no_fault (h : (s.keep t).1 = none) :
    (s.outcome t).dispatch = t.next.dispatch := by
  unfold outcome
  rw [h]
  split
  · next h' => cases h'
  · split <;> rfl

theorem dispatch_outcome : (s.outcome t).dispatch = t.next.dispatch ∨
    ∃ fault, (s.keep t).1 = some fault ∧ (s.outcome t).dispatch = t.ifBroken fault := by
  cases h : (s.keep t).1 with
  | some fault => exact .inr ⟨fault, rfl, dispatch_outcome_of_fault h⟩
  | none => exact .inl (dispatch_outcome_of_no_fault h)

/-- The dispatch ends up where it should where a fault makes no difference to it. -/
theorem dispatch_outcome_of_eq (h : ∀ fault, t.ifBroken fault = t.next.dispatch) :
    (s.outcome t).dispatch = t.next.dispatch := by
  rcases dispatch_outcome (s := s) (t := t) with e | ⟨fault, -, e⟩
  · exact e
  · rw [e, h]

theorem take_of_fault {fault : SaveFault} (h : (s.keep t).1 = some fault) : ∃ archive journal,
    s.take t = (some fault,
      { (s.put t.next).put { t.next with dispatch := t.ifBroken fault } with archive, journal }) := by
  obtain ⟨archive, journal, hf⟩ := keep_frame ((s.tell t.before).put t.next) t
  have hk := (keep_fst s ((s.tell t.before).put t.next) rfl t).trans h
  refine ⟨archive, journal, ?_⟩
  unfold take
  rw [show ((s.tell t.before).put t.next).keep t =
    (some fault, { (s.tell t.before).put t.next with archive, journal }) from Prod.ext hk hf]
  rfl

theorem take_of_no_fault (h : (s.keep t).1 = none) : ∃ archive journal,
    s.take t = (none, ({ s.put t.next with archive, journal } : Supervisor).conclude t) := by
  obtain ⟨archive, journal, hf⟩ := keep_frame ((s.tell t.before).put t.next) t
  have hk := (keep_fst s ((s.tell t.before).put t.next) rfl t).trans h
  refine ⟨archive, journal, ?_⟩
  unfold take
  rw [show ((s.tell t.before).put t.next).keep t =
    (none, { (s.tell t.before).put t.next with archive, journal }) from Prod.ext hk hf]
  rfl

theorem conclude_of_leaves (hl : t.leaves = true) : s.conclude t =
    (((s.tell t.lines).publish t.next.run.id t.news).released t.next.run.id).retire
      t.next.run.id := by
  unfold conclude
  rw [if_pos hl]
  rfl

theorem conclude_of_not_leaves (hl : t.leaves = false) :
    s.conclude t = (s.tell t.lines).publish t.next.run.id t.news := by
  unfold conclude
  rw [if_neg (by simp [hl])]

/-- A change is carried out, up to the queue for eviction. -/
theorem take_of_leaves (h : (s.keep t).1 = none) (hl : t.leaves = true)
    (hi : (s.state? t.next.run.id).isSome) : ∃ s' : Supervisor,
    (s.take t).2 = s'.retire t.next.run.id ∧ s'.retired = s.retired ∧ s'.evicted = s.evicted ∧
    s'.departing t.next.run.id = s.departing t.next.run.id ∧
    ∀ k, s'.state? k = if k = t.next.run.id then some (s.outcome t) else s.state? k := by
  obtain ⟨archive, journal, e⟩ := take_of_no_fault h
  rw [e, conclude_of_leaves hl]
  refine ⟨_, rfl, rfl, rfl, departing_congr rfl rfl ?_, fun k => ?_⟩
  · rw [state?_released, if_pos rfl, Option.isNone_map]
    exact isNone_state?_put
  · rw [state?_released]
    by_cases hk : k = t.next.run.id
    · subst hk
      rw [if_pos rfl, if_pos rfl]
      show ((s.put t.next).state? t.next.run.id).map _ = _
      rw [state?_put_self hi]
      simp only [outcome, h, hl, if_true, Option.map_some]
      rfl
    · rw [if_neg hk, if_neg hk]
      exact state?_put_of_ne hk

/-- **The runs after a change**: the run that changed has its new state, unless it is one of those
    that leave memory; every other run is as it was. -/
theorem state?_take (hi : (s.state? t.next.run.id).isSome) : (s.take t).2.state? k =
    if (s.keep t).1 = none ∧ t.leaves ∧ k ∈ s.departing t.next.run.id then none
    else if k = t.next.run.id then some (s.outcome t) else s.state? k := by
  obtain ⟨st₀, h₀⟩ := Option.isSome_iff_exists.mp hi
  cases hk : (s.keep t).1 with
  | some fault =>
      obtain ⟨archive, journal, e⟩ := take_of_fault hk
      rw [e, if_neg (by simp)]
      show ((s.put t.next).put { t.next with dispatch := t.ifBroken fault }).state? k = _
      rw [state?_put, state?_put]
      by_cases hkid : k = t.next.run.id
      · subst hkid
        simp [h₀, outcome, hk]
      · simp [hkid]
  | none =>
      cases hl : t.leaves with
      | true =>
          obtain ⟨s', e, -, -, hd, hs'⟩ := take_of_leaves hk hl hi
          rw [e, state?_retire, hd, hs']
          simp
      | false =>
          obtain ⟨archive, journal, e⟩ := take_of_no_fault hk
          rw [e, conclude_of_not_leaves hl, if_neg (by simp)]
          show (s.put t.next).state? k = _
          by_cases hkid : k = t.next.run.id
          · subst hkid
            rw [state?_put_self hi]
            simp [outcome, hk, hl]
          · rw [state?_put_of_ne hkid, if_neg hkid]

/-- **The runs that leave memory with a change**, as they are then. -/
theorem evicted_take (hi : (s.state? t.next.run.id).isSome) (hk : (s.keep t).1 = none)
    (hl : t.leaves = true) : (s.take t).2.evicted =
      s.evicted ++ (s.departing t.next.run.id).filterMap fun k =>
        if k = t.next.run.id then some (s.outcome t) else s.state? k := by
  obtain ⟨s', e, -, he, hd, hs'⟩ := take_of_leaves hk hl hi
  rw [e, evicted_retire, he, hd]
  congr 2
  funext k
  exact hs' k

/-- **The observers after a change**: they are told the news, unless the save broke. -/
theorem broadcaster_take : (s.take t).2.broadcaster =
    if (s.keep t).1 = none then (s.publish t.next.run.id t.news).broadcaster
    else s.broadcaster := by
  cases hk : (s.keep t).1 with
  | some fault =>
      obtain ⟨archive, journal, e⟩ := take_of_fault hk
      rw [e, if_neg (by simp)]
      rfl
  | none =>
      obtain ⟨archive, journal, e⟩ := take_of_no_fault hk
      rw [e, if_pos rfl]
      unfold conclude
      split
      · exact broadcaster_retire
      · rfl

/-- **The queue after a change** holds what was in it, and the run itself if it was put to rest, but
    nothing that left memory; and no id stands in it twice. -/
theorem retired_take (hn : s.retired.Nodup) (hi : (s.state? t.next.run.id).isSome) :
    (s.take t).2.retired.Nodup ∧ ∀ k ∈ (s.take t).2.retired,
      (k ∈ s.retired ∨ t.leaves = true ∧ k = t.next.run.id) ∧
      ¬ ((s.keep t).1 = none ∧ t.leaves = true ∧ k ∈ s.departing t.next.run.id) := by
  cases hk : (s.keep t).1 with
  | some fault =>
      obtain ⟨archive, journal, e⟩ := take_of_fault hk
      rw [e]
      exact ⟨hn, fun k h => ⟨.inl h, by simp⟩⟩
  | none =>
      cases hl : t.leaves with
      | true =>
          obtain ⟨s', e, hr, -, hd, -⟩ := take_of_leaves hk hl hi
          rw [e, ← hd, ← hr]
          rw [← hr] at hn
          refine ⟨nodup_retired_retire hn, fun k h => ?_⟩
          obtain ⟨hm, hnot⟩ := mem_retired_retire hn h
          exact ⟨hm.imp id fun e => ⟨rfl, e⟩, fun h => hnot h.2.2⟩
      | false =>
          obtain ⟨archive, journal, e⟩ := take_of_no_fault hk
          rw [e, conclude_of_not_leaves hl]
          exact ⟨hn, fun k h => ⟨.inl h, by simp⟩⟩

end StepRunner.Supervisor
