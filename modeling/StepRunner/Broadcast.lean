import StepRunner.Event

/-!
# Broadcasting events

A `Broadcaster` hands the events of runs to subscriptions. A subscription is a queue of events; it is
open, or closed by its subscriber, by a terminal event or with its run. A closed subscription takes no
more events, and its stream ends after those it has: the end mark stands last in its queue and stays
there.

Subscriptions are known by a number. The registry lists the open ones of each run in the order in which
they joined; a run without one is not in it.
-/

namespace StepRunner

/-- An entry of a subscription's queue. -/
inductive QueueItem where
  | event (e : Event)
  | endOfStream
  deriving Inhabited

/-- The stream of events of one subscriber. -/
structure Subscription where
  runId : String
  queue : List QueueItem := []
  closed : Bool := false
  /-- The registry is told when the subscription closes. -/
  attached : Bool := true
  deriving Inhabited

namespace Subscription

/-- Takes an event, unless the subscription is closed. -/
def put (s : Subscription) (e : Event) : Subscription :=
  if s.closed then s else { s with queue := s.queue ++ [.event e] }

/-- Closes the subscription. -/
def close (s : Subscription) : Subscription :=
  if s.closed then s else { s with closed := true, queue := s.queue ++ [.endOfStream] }

/-- The next event, if there is one. The end mark stays in the queue. -/
def get (s : Subscription) : Option Event × Subscription :=
  match s.queue with
  | [] => (none, s)
  | .event e :: rest => (some e, { s with queue := rest })
  | .endOfStream :: rest => (none, { s with queue := rest ++ [.endOfStream] })

/-- The events of the queue up to the end mark, and what is left behind it. -/
def drainQueue : List QueueItem → List Event × List QueueItem
  | [] => ([], [])
  | .event e :: rest => (e :: (drainQueue rest).1, (drainQueue rest).2)
  | .endOfStream :: rest => ([], rest ++ [.endOfStream])

/-- All events that are left in a closed subscription. -/
def drain (s : Subscription) : List Event × Subscription :=
  let (events, rest) := drainQueue s.queue
  (events, { s with queue := rest })

/-- The events that wait in the queue. -/
def waiting (s : Subscription) : List Event :=
  s.queue.filterMap fun
    | .event e => some e
    | .endOfStream => none

end Subscription

/-- Subscriptions, and which of them are open by run. -/
structure Broadcaster where
  subscriptions : List Subscription := []
  registry : List (String × List Nat) := []
  deriving Inhabited

namespace Broadcaster

/-! ## 1. Subscriptions by number -/

/-- The subscription of a number. -/
def sub? (b : Broadcaster) (n : Nat) : Option Subscription := b.subscriptions[n]?

/-- Changes the subscription of a number. -/
def modifySub (b : Broadcaster) (n : Nat) (f : Subscription → Subscription) : Broadcaster :=
  { b with subscriptions := b.subscriptions.modify n f }

/-- The open subscriptions of a run. -/
def subscribers (b : Broadcaster) (runId : String) : List Nat :=
  (b.registry.lookup runId).getD []

/-- How many open subscriptions a run has. -/
def count (b : Broadcaster) (runId : String) : Nat := (b.subscribers runId).length

/-! ## 2. The registry -/

/-- The registry with a further subscription of a run. -/
def enter (runId : String) (n : Nat) : List (String × List Nat) → List (String × List Nat)
  | [] => [(runId, [n])]
  | (r, ns) :: rest => if r = runId then (r, ns ++ [n]) :: rest else (r, ns) :: enter runId n rest

/-- The registry without a run. -/
def removeRun (runId : String) (registry : List (String × List Nat)) : List (String × List Nat) :=
  registry.filter fun (r, _) => r != runId

/-- The registry without a subscription of a run, and without the run where it was the last. -/
def leave (runId : String) (n : Nat) (registry : List (String × List Nat)) :
    List (String × List Nat) :=
  registry.filterMap fun (r, ns) =>
    if r = runId then
      let left := ns.erase n
      if left.isEmpty then none else some (r, left)
    else some (r, ns)

/-! ## 3. Operations -/

/-- A subscription that is in no registry: some events, and closed. -/
def addClosed (b : Broadcaster) (runId : String) (events : List Event) : Nat × Broadcaster :=
  let s : Subscription := { runId, attached := false }
  (b.subscriptions.length,
    { b with subscriptions := b.subscriptions ++ [(events.foldl Subscription.put s).close] })

/-- A further subscription of a run, with events to begin with. -/
def subscribe (b : Broadcaster) (runId : String) (events : List Event) : Nat × Broadcaster :=
  let n := b.subscriptions.length
  let s : Subscription := events.foldl Subscription.put { runId }
  (n, { subscriptions := b.subscriptions ++ [s], registry := enter runId n b.registry })

/-- Gives an event to a subscription. -/
def put (b : Broadcaster) (n : Nat) (e : Event) : Broadcaster := b.modifySub n (·.put e)

/-- Closes a subscription and takes it out of the registry. -/
def close (b : Broadcaster) (n : Nat) : Broadcaster :=
  match b.sub? n with
  | none => b
  | some s =>
    if s.closed then b
    else
      let b := b.modifySub n Subscription.close
      if s.attached then { b with registry := leave s.runId n b.registry } else b

/-- Closes several subscriptions. -/
def closeAll (b : Broadcaster) (ns : List Nat) : Broadcaster := ns.foldl close b

/-- Hands an event to the open subscriptions of a run; a terminal event closes them. -/
def publish (b : Broadcaster) (runId : String) (e : Event) : Broadcaster :=
  let ns := b.subscribers runId
  let b := if e.isTerminal then { b with registry := removeRun runId b.registry } else b
  let b := ns.foldl (fun b n => b.put n e) b
  if e.isTerminal then b.closeAll ns else b

/-- Closes the open subscriptions of a run. -/
def closeRun (b : Broadcaster) (runId : String) : Broadcaster :=
  let ns := b.subscribers runId
  { b with registry := removeRun runId b.registry : Broadcaster }.closeAll ns

/-- The next event of a subscription. -/
def get (b : Broadcaster) (n : Nat) : Option Event × Broadcaster :=
  match b.sub? n with
  | none => (none, b)
  | some s => (s.get.1, b.modifySub n fun s => s.get.2)

/-- All events that are left in a subscription. -/
def drain (b : Broadcaster) (n : Nat) : List Event × Broadcaster :=
  match b.sub? n with
  | none => ([], b)
  | some s => (s.drain.1, b.modifySub n fun s => s.drain.2)

end Broadcaster

end StepRunner
