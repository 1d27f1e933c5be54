import StepRunner.Proofs.Number.Binary64
import StepRunner.Proofs.Store.Agreement
import StepRunner.Proofs.Supervisor.Aggregate

/-!
# Runs that stay writable

A snapshot cannot be written if one of its integers has too many digits. A run does not come to that:
its counts are no greater than the number of its cases, and its duration is a time between two moments,
which binary64 bounds (`isTooLong_millisecondsSince`). So a run that can be written can be written after
every turn in which it takes no result with too long a duration (`isWritable_of_turns`).

* `RunState.Brief`: no result that waits to be looked at has too long a duration; kept by every change on
  an occasion that brings none (`RunState.brief_of_goes`).
-/

namespace StepRunner

open Number Json

/-! ## 1. Integers -/

variable {n m : Int}

theorem isTooLong_of_lt (h : n.natAbs < tenTo digitLimit) : isTooLong n = false := by
  unfold isTooLong
  rw [decide_eq_false_iff_not]
  have hle := length_decimal_le (by decide) h
  omega

theorem lt_of_not_isTooLong (h : isTooLong n = false) : n.natAbs < tenTo digitLimit := by
  unfold isTooLong at h
  rw [decide_eq_false_iff_not] at h
  by_cases h0 : n.natAbs = 0
  · rw [h0]
    exact tenTo_pos _
  · exact (decimal_bounds h0).2.trans_le (tenTo_le (by omega))

theorem isTooLong_of_le (h : isTooLong m = false) (hle : n.natAbs ≤ m.natAbs) : isTooLong n = false :=
  isTooLong_of_lt (hle.trans_lt (lt_of_not_isTooLong h))

theorem twoTo_le_tenTo (k : Nat) : twoTo k ≤ tenTo k := Nat.pow_le_pow_left (by decide) k

/-- A product of the format is below its greatest number. -/
theorem Binary64.units_mul_lt {x y : Binary64} {negative : Bool} {significand exponent : Nat}
    (h : x.mul y = .finite negative significand exponent) :
    units significand exponent < twoTo 1024 * unitsPerOne := by
  have hof : ∃ sign num, ofUnits sign num unitsPerOne = .finite negative significand exponent := by
    cases x with
    | nan => cases h
    | infinite a =>
        cases y with
        | nan | infinite => cases h
        | finite b n q =>
            rw [mul] at h
            split at h <;> cases h
    | finite a m p =>
        cases y with
        | nan => cases h
        | infinite b =>
            rw [mul] at h
            split at h <;> cases h
        | finite b n q =>
            rw [mul] at h
            exact ⟨_, _, h⟩
  obtain ⟨sign, num, hof⟩ := hof
  have hpos : 0 < unitsPerOne := by
    unfold unitsPerOne
    exact twoTo_pos _
  obtain ⟨hs, he⟩ := significand_lt hpos hof
  calc units significand exponent ≤ significand * twoTo 2045 := Nat.mul_le_mul_left _ (twoTo_le he)
    _ < twoTo 53 * twoTo 2045 := Nat.mul_lt_mul_of_pos_right hs (twoTo_pos _)
    _ = twoTo 1024 * unitsPerOne := by
      rw [unitsPerOne, ← twoTo_add, ← twoTo_add]

/-- **A time between two moments** is no integer that is too long. -/
theorem isTooLong_millisecondsSince (start finish : Instant) :
    isTooLong (start.millisecondsSince finish) = false := by
  unfold Instant.millisecondsSince
  cases hx : (start.secondsSince finish).mul (Binary64.ofInt 1000) with
  | nan => exact isTooLong_of_lt (tenTo_pos _)
  | infinite => exact isTooLong_of_lt (tenTo_pos _)
  | finite negative significand exponent =>
      have hlt := Nat.div_lt_of_lt_mul (Nat.mul_comm _ _ ▸ Binary64.units_mul_lt hx)
      refine isTooLong_of_lt ?_
      have habs : ((Binary64.finite negative significand exponent).truncate?.getD 0).natAbs =
          Binary64.units significand exponent / Binary64.unitsPerOne := by
        cases negative with
        | false => exact Int.natAbs_natCast _
        | true => exact (Int.natAbs_neg _).trans (Int.natAbs_natCast _)
      rw [habs]
      calc _ < twoTo 1024 := hlt
        _ ≤ tenTo 1024 := twoTo_le_tenTo _
        _ ≤ tenTo digitLimit := tenTo_le (by decide)

/-! ## 2. Runs -/

variable {run run' : Run} {now : Instant} {news : List Happening}

theorem isWritable_counts {c : RunCounts} : c.toJson.isWritable = true ↔ isTooLong c.total = false ∧
    isTooLong c.passed = false ∧ isTooLong c.failed = false ∧ isTooLong c.pending = false ∧
    isTooLong c.duration = false := by
  simp [RunCounts.toJson, Json.isWritable, haveWritable]

namespace Run

/-- No count is greater than the number of the cases. -/
theorem Aggregate.isWritable_counts (ha : run.Aggregate) (ht : isTooLong run.counts.total = false)
    (hd : isTooLong run.counts.duration = false) : run.counts.toJson.isWritable = true := by
  have hsum := ha.sum
  have hpassed := ha.passed
  have hfailed := ha.failed
  have hpending := ha.pending
  exact StepRunner.isWritable_counts.mpr ⟨ht, isTooLong_of_le ht (by omega),
    isTooLong_of_le ht (by omega), isTooLong_of_le ht (by omega), hd⟩

theorem Turns.isTooLong_duration (ht : run.Turns now run' news)
    (h : isTooLong run.counts.duration = false) : isTooLong run'.counts.duration = false := by
  cases ht with
  | stays | starts => exact h
  | records c r =>
      have hrecord : (run.counts.record r.status).duration = run.counts.duration := by
        cases r.status <;> rfl
      exact (congrArg isTooLong hrecord).trans h
  | completes | fails | cancels => exact isTooLong_millisecondsSince _ _

/-- **A run stays writable** in every turn in which it takes no result with too long a duration. -/
theorem Turns.isWritable (ht : run.Turns now run' news) (ha : run.Aggregate)
    (hw : Store.isWritable run = true)
    (hr : ∀ k r, run'.caseResults.result? k = some r →
      run.caseResults.result? k = some r ∨ isTooLong r.duration = false) :
    Store.isWritable run' = true := by
  obtain ⟨hconfig, hcounts, hresults⟩ := Store.isWritable_iff.mp hw
  obtain ⟨htotal, -, -, -, hduration⟩ := StepRunner.isWritable_counts.mp hcounts
  have ha' := ht.aggregate ha
  rw [ha.total, ← ht.testCases_eq, ← ha'.total] at htotal
  refine Store.isWritable_iff.mpr ⟨by rwa [ht.config_eq],
    ha'.isWritable_counts htotal (ht.isTooLong_duration hduration), fun c hc r h => ?_⟩
  rcases hr c.id r h with h | h
  · exact hresults c (ht.testCases_eq ▸ hc) r h
  · exact h

end Run

/-! ## 3. Results on their way -/

/-- The occasion brings no result with too long a duration. -/
def Occasion.Brief : Occasion → Prop
  | .handIn _ (.result r) => isTooLong r.duration = false
  | _ => True

/-- What a case handed in is no result with too long a duration. -/
def HandedIn.Brief : HandedIn → Prop
  | .result r => isTooLong r.duration = false
  | .noSession _ => True

/-- No result that waits to be looked at has too long a duration. -/
def RunState.Brief (st : RunState) : Prop :=
  ∀ p, st.dispatch = .active p → ∀ e ∈ p.finished, e.2.Brief

namespace RunState

variable {st : RunState} {o : Occasion} {t : Change}

theorem brief_handedIn {caseId : String} {outcome : CaseOutcome}
    (h : (Occasion.handIn caseId outcome).Brief) : (outcome.handedIn now).Brief := by
  cases outcome with
  | result r => exact h
  | noSession => trivial
  | broke => exact isTooLong_of_lt (tenTo_pos _)

theorem brief_of_goes (hg : st.Goes now o t) (ho : o.Brief) (h : st.Brief) : t.next.Brief := by
  intro p hp
  cases hg with
  | launch | begin | beginLate | openNone | openNever | noSession | complete | stop | giveUp | giveUpLate
  | depart => cases hp
  | openPool =>
      cases hp
      exact nofun
  | fill pool hd =>
      cases hp
      exact h pool hd
  | handIn pool c caseId outcome hd =>
      cases hp
      intro e he
      rcases List.mem_append.mp he with he | he
      · exact h pool hd e he
      · rw [List.mem_singleton.mp he]
        exact brief_handedIn ho
  | record pool c caseId r hd | drop pool c caseId x lines hd =>
      cases hp
      exact fun e he => h pool hd e (List.mem_of_mem_eraseP he)
  | expire | cancel => exact h p hp

/-- What a run newly holds had been waiting to be looked at. -/
theorem result_of_goes_of_brief (hg : st.Goes now o t) (h : st.Brief) (k : String) (r : CaseResult)
    (hr : t.next.run.caseResults.result? k = some r) :
    st.run.caseResults.result? k = some r ∨ isTooLong r.duration = false := by
  cases hg with
  | record pool c caseId r' hd hc =>
      dsimp only [Run.recorded] at hr
      rw [CaseResults.result?_put] at hr
      split at hr
      · cases hr
        exact .inr (h pool hd (c, .result r) (List.mem_of_find?_eq_some hc))
      · exact .inl hr
  | _ => exact .inl hr

end RunState

end StepRunner
