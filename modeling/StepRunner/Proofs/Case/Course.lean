import StepRunner.Case.Running
import StepRunner.Proofs.Step.Execution

/-!
# The course of a case

`Course` tells how the steps of a case go, one after the other: each finds the run cancelled, or fails, or
is carried out with calls of its own; after the last the expected outcome is checked. There is one course
for each beginning (`Course.unique`), and it is what carrying out the steps does
(`course_attemptSteps`).
-/

namespace StepRunner

open Number Text

namespace Case

variable {σ : Type} {b : Browser σ} {e : Executor} {d d' d₁ d₂ : Drive σ} {index : Nat} {text : String}
  {rest texts : List String} {expected : String} {calls : List Call} {made made' : List (List Call)}

/-! ## 1. Steps -/

/-- A step of a case: the sentence is read, logged and carried out. -/
def takeStep (e : Executor) (b : Browser σ) (index : Nat) (text : String) : Stepping σ Unit :=
  match parseStep text with
  | .error f => throw (.read f)
  | .ok step => do
    Executor.say (stripRight ("Step " ++ numeral index ++ ": " ++ text ++ " -> "
      ++ step.action.name ++ " " ++ step.target.getD ""))
    e.execute b step

/-- How the steps of a case end. -/
inductive Ending where
  | passed
  /-- The run was cancelled before the case. -/
  | unstarted
  /-- The run was cancelled before the step of a number. -/
  | cancelled (step : Nat)
  /-- The step of a number failed. -/
  | failed (step : Nat) (fault : StepFault)
  /-- The expected outcome was not found. -/
  | unmet (fault : StepFault)

/-- What made a case fail other than that it was cancelled. -/
def Ending.fault? : Ending → Option StepFault
  | .failed _ f => some f
  | .unmet f => some f
  | .passed | .unstarted | .cancelled _ => none

/-- What the steps come to. -/
def Ending.outcome : Ending → Except StepFault Unit
  | .passed | .unstarted => .ok ()
  | .cancelled step => .error (.failed .cancelled ("Test case cancelled before step " ++ numeral step))
  | .failed _ f => .error f
  | .unmet f => .error f

/-- **The course of the steps** from number `index` on: the calls of each step that is begun, and of the
    check of the expected outcome. -/
inductive Course (e : Executor) (b : Browser σ) (expected : String) :
    Nat → List String → Drive σ → List (List Call) → Ending → Drive σ → Prop where
  | cancelled {index : Nat} {text : String} {rest : List String} {d : Drive σ} (h : d.cancelled = true) :
      Course e b expected index (text :: rest) d [] (.cancelled index) d
  | failed {index : Nat} {text : String} {rest : List String} {d d' : Drive σ} {calls : List Call}
      {f : StepFault} (h : d.cancelled = false)
      (hrun : (takeStep e b index text).run d = (.error f, d')) (hcalls : d'.trace = d.trace ++ calls) :
      Course e b expected index (text :: rest) d [calls] (.failed index f) d'
  | step {index : Nat} {text : String} {rest : List String} {d d₁ d' : Drive σ} {calls : List Call}
      {made : List (List Call)} {x : Ending} (h : d.cancelled = false)
      (hrun : (takeStep e b index text).run d = (.ok (), d₁)) (hcalls : d₁.trace = d.trace ++ calls)
      (hrest : Course e b expected (index + 1) rest d₁ made x d') :
      Course e b expected index (text :: rest) d (calls :: made) x d'
  | met {index : Nat} {d d' : Drive σ} {calls : List Call}
      (hrun : (Executor.validate b expected).run d = (.ok (), d')) (hcalls : d'.trace = d.trace ++ calls) :
      Course e b expected index [] d [calls] .passed d'
  | unmet {index : Nat} {d d' : Drive σ} {calls : List Call} {f : StepFault}
      (hrun : (Executor.validate b expected).run d = (.error f, d'))
      (hcalls : d'.trace = d.trace ++ calls) :
      Course e b expected index [] d [calls] (.unmet f) d'

theorem calls_eq {calls' : List Call} (h : d'.trace = d.trace ++ calls) (h' : d'.trace = d.trace ++ calls') :
    calls = calls' := List.append_cancel_left (h.symm.trans h')

/-- **There is one course.** -/
theorem Course.unique {x y : Ending} (h : Course e b expected index texts d made x d₁)
    (h' : Course e b expected index texts d made' y d₂) : made = made' ∧ x = y ∧ d₁ = d₂ := by
  induction h generalizing made' y d₂ with
  | cancelled hcancelled =>
      cases h' with
      | cancelled => exact ⟨rfl, rfl, rfl⟩
      | failed h => cases hcancelled.symm.trans h
      | step h => cases hcancelled.symm.trans h
  | failed hgoes hrun hcalls =>
      cases h' with
      | cancelled h => cases hgoes.symm.trans h
      | failed _ hrun' hcalls' =>
          cases hrun.symm.trans hrun'
          exact ⟨by rw [calls_eq hcalls hcalls'], rfl, rfl⟩
      | step _ hrun' => cases hrun.symm.trans hrun'
  | step hgoes hrun hcalls _ ih =>
      cases h' with
      | cancelled h => cases hgoes.symm.trans h
      | failed _ hrun' => cases hrun.symm.trans hrun'
      | step _ hrun' hcalls' hrest' =>
          cases hrun.symm.trans hrun'
          obtain ⟨hmade, hx, hd⟩ := ih hrest'
          exact ⟨by rw [calls_eq hcalls hcalls', hmade], hx, hd⟩
  | met hrun hcalls =>
      cases h' with
      | met hrun' hcalls' =>
          cases hrun.symm.trans hrun'
          exact ⟨by rw [calls_eq hcalls hcalls'], rfl, rfl⟩
      | unmet hrun' => cases hrun.symm.trans hrun'
  | unmet hrun hcalls =>
      cases h' with
      | met hrun' => cases hrun.symm.trans hrun'
      | unmet hrun' hcalls' =>
          cases hrun.symm.trans hrun'
          exact ⟨by rw [calls_eq hcalls hcalls'], rfl, rfl⟩

/-- The calls of the course are those that were made. -/
theorem Course.trace {x : Ending} (h : Course e b expected index texts d made x d₁) :
    d₁.trace = d.trace ++ made.flatten := by
  induction h with
  | cancelled => rw [List.flatten_nil, List.append_nil]
  | failed _ _ hcalls => rw [List.flatten_singleton, hcalls]
  | step _ _ hcalls _ ih => rw [ih, hcalls, List.flatten_cons, List.append_assoc]
  | met _ hcalls => rw [List.flatten_singleton, hcalls]
  | unmet _ hcalls => rw [List.flatten_singleton, hcalls]

/-! ## 2. What the steps do -/

theorem keepsToPage_takeStep (e : Executor) (b : Browser σ) (index : Nat) (text : String) :
    Executor.KeepsToPage b (takeStep e b index text) := by
  unfold takeStep
  cases parseStep text with
  | error f => exact .throw nofun
  | ok step => exact (Executor.keepsToPage_say _).bind fun _ => Executor.keepsToPage_execute e b step

/-- Carrying out steps is taking the first of them, unless the run is cancelled, and then the others. -/
theorem carryOut_cons (e : Executor) (b : Browser σ) (index : Nat) (text : String) (rest : List String)
    (d : Drive σ) : (carryOut e b index (text :: rest)).run d =
      if d.cancelled = true then
        (.error (.failed .cancelled ("Test case cancelled before step " ++ numeral index)), d)
      else (takeStep e b index text >>= fun _ => carryOut e b (index + 1) rest).run d := by
  rw [carryOut, run_bind_get]
  cases d.cancelled with
  | true => rfl
  | false =>
      unfold takeStep
      cases parseStep text with
      | error f => rfl
      | ok step => simp only [Bool.false_eq_true, if_false, pure_bind, bind_assoc]

/-- What the steps and the check of the expected outcome do from number `index` on. -/
theorem course_of_steps (e : Executor) (b : Browser σ) (expected : String) (index : Nat)
    (texts : List String) (d : Drive σ) :
    ∃ made x d', (carryOut e b index texts >>= fun _ => Executor.validate b expected).run d =
        (x.outcome, d') ∧
      Course e b expected index texts d made x d' ∧ x ≠ .unstarted ∧
      (∀ call ∈ made.flatten, call.isOfPage = true) ∧ ∀ f, x.fault? = some f → f.kind ≠ .cancelled := by
  induction texts generalizing index d with
  | nil =>
      cases hrun : (Executor.validate b expected).run d with
      | mk r d' =>
          obtain ⟨calls, hcalls, hof, hkind⟩ := (Executor.keepsToPage_validate b expected).calls hrun
          cases r with
          | ok u => exact ⟨[calls], .passed, d', hrun, .met hrun hcalls, nofun, by simpa using hof, nofun⟩
          | error f =>
              refine ⟨[calls], .unmet f, d', hrun, .unmet hrun hcalls, nofun, by simpa using hof, ?_⟩
              rintro g ⟨⟩
              exact hkind f rfl
  | cons text rest ih =>
      cases hgoes : d.cancelled with
      | true =>
          have hstop := carryOut_cons e b index text rest d
          rw [if_pos hgoes] at hstop
          exact ⟨[], .cancelled index, d, run_bind_of_error hstop, .cancelled hgoes, nofun, nofun, nofun⟩
      | false =>
          have hgo := carryOut_cons e b index text rest d
          rw [if_neg (by simp [hgoes])] at hgo
          rw [run_bind_congr _ hgo, bind_assoc]
          cases hrun : (takeStep e b index text).run d with
          | mk r d₁ =>
              obtain ⟨calls, hcalls, hof, hkind⟩ := (keepsToPage_takeStep e b index text).calls hrun
              cases r with
              | error f =>
                  refine ⟨[calls], .failed index f, d₁, run_bind_of_error hrun, .failed hgoes hrun hcalls, nofun,
                    by simpa using hof, ?_⟩
                  rintro g ⟨⟩
                  exact hkind f rfl
              | ok u =>
                  obtain ⟨made, x, d', hrest, hcourse, hx, hof', hkind'⟩ := ih (index + 1) d₁
                  refine ⟨calls :: made, x, d', (run_bind_of_ok hrun).trans hrest,
                    .step hgoes hrun hcalls hcourse, hx, ?_, hkind'⟩
                  intro call hcall
                  rw [List.flatten_cons] at hcall
                  exact (List.mem_append.mp hcall).elim (hof call) (hof' call)

end Case

end StepRunner
