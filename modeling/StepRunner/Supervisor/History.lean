import StepRunner.Supervisor.Requests

/-!
# Histories

What can happen to a supervisor is a `Move`: a run is registered, an occasion comes for a run in memory
(its dispatch is asked for, goes on by itself, or it is cancelled), somebody opens, reads or closes a
stream of events, or the clock shows another time. A history is a list of moves, and any list is one:
`Supervisor.after` is the supervisor at its end. A move that is none for the supervisor as it stands
changes nothing.

* `Supervisor.Breaks`: the save that a move asks for breaks, that is, raises anything but the fault
  that the snapshot cannot be written;
* `Supervisor.stay`: the states of a run from now on, up to the one in which it leaves memory;
* `Supervisor.yielded`: what a subscriber reads in a history.
-/

namespace StepRunner

/-! ## 1. Moves -/

/-- What can happen to a supervisor. -/
inductive Move where
  | register (run : Run)
  | occur (id : String) (o : Occasion)
  | subscribe (id : String)
  | unsubscribe (n : Nat)
  | read (n : Nat)
  | clock (now : Instant)
  deriving Inhabited

/-- The runs that a history registers, accepted or not. -/
def Move.registered (h : List Move) : List Run :=
  h.filterMap fun
    | .register run => some run
    | _ => none

namespace Supervisor

/-- A supervisor to which nothing has happened yet. -/
def new (settings : Settings) (archive : Archive) (now : Instant) : Supervisor :=
  { settings, archive, now }

/-- The supervisor after a move. -/
def perform (s : Supervisor) : Move → Supervisor
  | .register run => (s.register run).2
  | .occur id o => s.occur id o
  | .subscribe id => (s.subscribe id).2
  | .unsubscribe n => { s with broadcaster := s.broadcaster.close n }
  | .read n => { s with broadcaster := (s.broadcaster.get n).2 }
  | .clock now => { s with now }

/-- The supervisor after a history. -/
def after (s : Supervisor) (h : List Move) : Supervisor := h.foldl perform s

@[simp] theorem after_nil (s : Supervisor) : s.after [] = s := rfl

@[simp] theorem after_cons (s : Supervisor) (m : Move) (h : List Move) :
    s.after (m :: h) = (s.perform m).after h := rfl

@[simp] theorem after_append (s : Supervisor) (h₁ h₂ : List Move) :
    s.after (h₁ ++ h₂) = (s.after h₁).after h₂ := List.foldl_append

/-! ## 2. Saves -/

/-- The run that a move hands to the store. -/
def handsOver (s : Supervisor) : Move → Option Run
  | .register run => if s.accepts run then some run else none
  | .occur id o => (s.change? id o).bind fun t => if t.saved then some t.next.run else none
  | _ => none

/-- The save that a move asks for breaks. -/
def Breaks (s : Supervisor) (m : Move) : Prop :=
  ∃ run, s.handsOver m = some run ∧ (s.persist run).1.isSome

instance (s : Supervisor) (m : Move) : Decidable (s.Breaks m) :=
  decidable_of_iff ((s.handsOver m).any fun run => (s.persist run).1.isSome)
    (by unfold Breaks; cases s.handsOver m <;> simp)

/-- No save of a history breaks. -/
def Unbroken (s : Supervisor) : List Move → Prop
  | [] => True
  | m :: h => ¬ s.Breaks m ∧ (s.perform m).Unbroken h

instance decidableUnbroken (s : Supervisor) : (h : List Move) → Decidable (s.Unbroken h)
  | [] => isTrue trivial
  | m :: h => @instDecidableAnd _ _ _ (decidableUnbroken (s.perform m) h)

/-! ## 3. Runs and streams over a history -/

/-- A run is in memory all through a history. -/
def Holds (s : Supervisor) (id : String) : List Move → Prop
  | [] => (s.run? id).isSome
  | m :: h => (s.run? id).isSome ∧ (s.perform m).Holds id h

/-- A run as it left memory in a move. -/
def parting? (s : Supervisor) (id : String) (m : Move) : Option Run :=
  (((s.perform m).evicted.drop s.evicted.length).find? (·.run.id == id)).map (·.run)

/-- The states of a run from now on, up to the one in which it leaves memory. -/
def stay (s : Supervisor) (id : String) : List Move → List Run
  | [] => (s.run? id).toList
  | m :: h =>
    match s.run? id with
    | none => []
    | some run =>
      run :: if ((s.perform m).run? id).isSome then (s.perform m).stay id h
        else (s.parting? id m).toList

/-- A run in memory has been in a status since it was registered. -/
def HasBeen (s : Supervisor) (id : String) (h : List Move) (status : RunStatus) : Prop :=
  ∃ h₁ h₂, h = h₁ ++ h₂ ∧ (∃ run, (s.after h₁).run? id = some run ∧ run.status = status) ∧
    (s.after h₁).Holds id h₂

/-- What a subscriber reads in a move. -/
def reads (s : Supervisor) (n : Nat) : Move → List Event
  | .read m => if m = n then (s.broadcaster.get n).1.toList else []
  | _ => []

/-- What a subscriber reads in a history, in order. -/
def yielded (s : Supervisor) (n : Nat) : List Move → List Event
  | [] => []
  | m :: h => s.reads n m ++ (s.perform m).yielded n h

end Supervisor

end StepRunner
