import Mathlib.Data.List.Basic
import Mathlib.Data.List.Nodup
import StepRunner.Broadcast
import StepRunner.Proofs.Run

/-!
# What a broadcaster does to its subscriptions

Every operation of a broadcaster is described by what it does to the subscription of each number
(`sub?_…`) and to the list of the open subscriptions of each run (`subscribers_…`). The two agree as long
as the broadcaster is `Consistent`, which every operation keeps:

* no run stands in the registry twice, and no subscription twice in the list of a run;
* the registry lists just the subscriptions that are open and were ever in it, each under its run;
* the queue of a subscription holds events, and behind them the end mark if the subscription is closed.
-/

namespace StepRunner

/-! ## 1. Subscriptions -/

namespace Subscription

variable {s : Subscription} {e : Event} {events : List Event}

/-- Takes an event of the run; a terminal one closes the subscription. -/
def receive (s : Subscription) (e : Event) : Subscription :=
  if e.isTerminal then (s.put e).close else s.put e

/-- The queue holds these events, and behind them the end mark if the subscription is closed. -/
def Queues (s : Subscription) (events : List Event) : Prop :=
  s.queue = events.map .event ++ if s.closed then [.endOfStream] else []

theorem put_of_open (h : s.closed = false) : s.put e = { s with queue := s.queue ++ [.event e] } := by
  unfold put
  rw [if_neg (by simp [h])]

theorem close_of_closed (h : s.closed = true) : s.close = s := by
  unfold close
  rw [if_pos h]

theorem close_of_open (h : s.closed = false) :
    s.close = { s with closed := true, queue := s.queue ++ [.endOfStream] } := by
  unfold close
  rw [if_neg (by simp [h])]

@[simp] theorem closed_close : s.close.closed = true := by
  unfold close
  split
  · assumption
  · rfl

@[simp] theorem runId_close : s.close.runId = s.runId := by
  unfold close
  split <;> rfl

@[simp] theorem attached_close : s.close.attached = s.attached := by
  unfold close
  split <;> rfl

@[simp] theorem closed_put : (s.put e).closed = s.closed := by
  unfold put
  split <;> rfl

@[simp] theorem runId_put : (s.put e).runId = s.runId := by
  unfold put
  split <;> rfl

@[simp] theorem attached_put : (s.put e).attached = s.attached := by
  unfold put
  split <;> rfl

@[simp] theorem closed_get : s.get.2.closed = s.closed := by
  unfold get
  split <;> rfl

@[simp] theorem runId_get : s.get.2.runId = s.runId := by
  unfold get
  split <;> rfl

@[simp] theorem attached_get : s.get.2.attached = s.attached := by
  unfold get
  split <;> rfl

theorem foldl_put (h : s.closed = false) :
    events.foldl put s = { s with queue := s.queue ++ events.map .event } := by
  induction events generalizing s with
  | nil => simp
  | cons e events ih =>
      have hput : (s.put e).closed = false := closed_put.trans h
      rw [List.foldl_cons, ih hput, put_of_open h, List.map_cons]
      simp

theorem Queues.put (h : s.Queues events) (ho : s.closed = false) : (s.put e).Queues (events ++ [e]) := by
  unfold Queues at h ⊢
  rw [put_of_open ho]
  simp [h, ho]

theorem Queues.close (h : s.Queues events) : s.close.Queues events := by
  cases ho : s.closed with
  | true => rwa [close_of_closed ho]
  | false =>
      unfold Queues at h ⊢
      rw [close_of_open ho]
      simp [h, ho]

theorem Queues.receive (h : s.Queues events) (ho : s.closed = false) :
    (s.receive e).Queues (events ++ [e]) := by
  unfold Subscription.receive
  split
  · exact (h.put ho).close
  · exact h.put ho

theorem Queues.get_nil (h : s.Queues []) : s.get.1 = none ∧ s.get.2.Queues [] := by
  unfold Queues at h
  cases ho : s.closed with
  | true => simp_all [get, Queues]
  | false => simp_all [get, Queues]

theorem Queues.get_cons (h : s.Queues (e :: events)) : s.get.1 = some e ∧ s.get.2.Queues events := by
  unfold Queues at h
  rw [List.map_cons, List.cons_append] at h
  simp [get, h, Queues]

end Subscription

namespace Broadcaster

variable {b : Broadcaster} {n k : Nat} {id r : String} {e : Event}

/-! ## 2. The registry -/

theorem subscribers_cons (subscriptions : List Subscription) (entry : String × List Nat)
    (registry : List (String × List Nat)) : subscribers ⟨subscriptions, entry :: registry⟩ r =
      if r = entry.1 then entry.2 else subscribers ⟨subscriptions, registry⟩ r := by
  unfold subscribers
  rw [lookup_cons_ite]
  split <;> rfl

theorem subscribers_of_not_mem (h : r ∉ b.registry.map (·.1)) : b.subscribers r = [] := by
  obtain ⟨subscriptions, registry⟩ := b
  induction registry with
  | nil => rfl
  | cons entry rest ih =>
      simp only [List.map_cons, List.mem_cons, not_or] at h
      rw [subscribers_cons, if_neg h.1]
      exact ih h.2

theorem subscribers_enter (subscriptions : List Subscription) (registry : List (String × List Nat)) :
    subscribers ⟨subscriptions, enter id n registry⟩ r =
      if r = id then subscribers ⟨subscriptions, registry⟩ r ++ [n]
      else subscribers ⟨subscriptions, registry⟩ r := by
  induction registry with
  | nil =>
      rw [enter, subscribers_cons]
      rfl
  | cons entry rest ih =>
      obtain ⟨i, ns⟩ := entry
      unfold enter
      split
      · next hi =>
          subst hi
          rw [subscribers_cons, subscribers_cons]
          split <;> rfl
      · next hi =>
          rw [subscribers_cons, subscribers_cons, ih]
          by_cases hr : r = i
          · subst hr
            rw [if_pos rfl, if_pos rfl, if_neg hi]
          · rw [if_neg hr, if_neg hr]

theorem mem_keys_enter (registry : List (String × List Nat)) :
    r ∈ (enter id n registry).map (·.1) ↔ r = id ∨ r ∈ registry.map (·.1) := by
  induction registry with
  | nil => simp [enter]
  | cons entry rest ih =>
      unfold enter
      split
      · next hi => simp [hi]
      · next hi =>
          rw [List.map_cons, List.mem_cons, ih, List.map_cons, List.mem_cons]
          tauto

theorem nodup_keys_enter {registry : List (String × List Nat)} (h : (registry.map (·.1)).Nodup) :
    ((enter id n registry).map (·.1)).Nodup := by
  induction registry with
  | nil => simp [enter]
  | cons entry rest ih =>
      rw [List.map_cons, List.nodup_cons] at h
      unfold enter
      split
      · exact List.nodup_cons.mpr h
      · next hi =>
          refine List.nodup_cons.mpr ⟨fun hm => ?_, ih h.2⟩
          exact ((mem_keys_enter rest).mp hm).elim hi h.1

theorem subscribers_removeRun (subscriptions : List Subscription)
    (registry : List (String × List Nat)) : subscribers ⟨subscriptions, removeRun id registry⟩ r =
      if r = id then [] else subscribers ⟨subscriptions, registry⟩ r := by
  induction registry with
  | nil =>
      split <;> rfl
  | cons entry rest ih =>
      obtain ⟨i, ns⟩ := entry
      unfold removeRun at ih ⊢
      by_cases hi : i = id
      · subst hi
        rw [List.filter_cons_of_neg (by simp), ih, subscribers_cons]
        split
        · rfl
        · rfl
      · rw [List.filter_cons_of_pos (by simp [hi]), subscribers_cons, subscribers_cons, ih]
        by_cases hr : r = i
        · subst hr
          rw [if_pos rfl, if_pos rfl, if_neg hi]
        · rw [if_neg hr, if_neg hr]

theorem leave_cons (entry : String × List Nat) (rest : List (String × List Nat)) :
    leave id n (entry :: rest) =
      if entry.1 = id then
        if (entry.2.erase n).isEmpty then leave id n rest
        else (entry.1, entry.2.erase n) :: leave id n rest
      else entry :: leave id n rest := by
  unfold leave
  rw [List.filterMap_cons]
  by_cases hi : entry.1 = id
  · by_cases he : (entry.2.erase n).isEmpty = true
    · simp [hi, he]
    · simp [hi, he]
  · simp [hi]

theorem keys_leave (registry : List (String × List Nat)) :
    ((leave id n registry).map (·.1)).Sublist (registry.map (·.1)) := by
  induction registry with
  | nil => exact .slnil
  | cons entry rest ih =>
      rw [leave_cons]
      split
      · split
        · exact ih.cons _
        · exact ih.cons_cons _
      · exact ih.cons_cons _

theorem subscribers_leave (subscriptions : List Subscription) {registry : List (String × List Nat)}
    (h : (registry.map (·.1)).Nodup) : subscribers ⟨subscriptions, leave id n registry⟩ r =
      if r = id then (subscribers ⟨subscriptions, registry⟩ r).erase n
      else subscribers ⟨subscriptions, registry⟩ r := by
  induction registry with
  | nil =>
      split <;> rfl
  | cons entry rest ih =>
      obtain ⟨i, ns⟩ := entry
      rw [List.map_cons, List.nodup_cons] at h
      have ih := ih h.2
      rw [leave_cons]
      split
      · next hi =>
          subst hi
          -- the run is listed here and nowhere further on
          have hrest : subscribers ⟨subscriptions, rest⟩ i = [] := subscribers_of_not_mem h.1
          split
          · next he =>
              rw [List.isEmpty_iff] at he
              rw [ih, subscribers_cons]
              by_cases hr : r = i
              · subst hr
                simp [hrest, he]
              · simp [hr]
          · rw [subscribers_cons, subscribers_cons, ih]
            by_cases hr : r = i <;> simp [hr]
      · next hi =>
          rw [subscribers_cons, subscribers_cons, ih]
          by_cases hr : r = i
          · subst hr
            simp [show ¬ r = id from hi]
          · simp [hr]

theorem leave_of_not_mem {registry : List (String × List Nat)} (h : id ∉ registry.map (·.1)) :
    leave id n registry = registry := by
  induction registry with
  | nil => rfl
  | cons entry rest ih =>
      simp only [List.map_cons, List.mem_cons, not_or] at h
      rw [leave_cons, if_neg (Ne.symm h.1), ih h.2]

theorem not_mem_keys_removeRun (registry : List (String × List Nat)) :
    id ∉ (removeRun id registry).map (·.1) := by
  simp [removeRun]

/-! ## 3. What the operations do -/

theorem sub?_modifySub {f : Subscription → Subscription} :
    (b.modifySub n f).sub? k = if k = n then (b.sub? k).map f else b.sub? k := by
  unfold modifySub sub?
  rw [List.getElem?_modify]
  by_cases h : n = k
  · subst h
    simp
  · simp [h, Ne.symm h]

theorem sub?_put : (b.put n e).sub? k = if k = n then (b.sub? k).map (·.put e) else b.sub? k :=
  sub?_modifySub

theorem sub?_puts {ns : List Nat} (h : ns.Nodup) :
    (ns.foldl (fun b n => b.put n e) b).sub? k =
      if k ∈ ns then (b.sub? k).map (·.put e) else b.sub? k := by
  induction ns generalizing b with
  | nil => simp
  | cons n ns ih =>
      rw [List.nodup_cons] at h
      rw [List.foldl_cons, ih h.2, sub?_put]
      by_cases hk : k = n
      · subst hk
        simp [h.1]
      · simp [hk]

theorem registry_puts (ns : List Nat) :
    (ns.foldl (fun b n => b.put n e) b).registry = b.registry := by
  induction ns generalizing b with
  | nil => rfl
  | cons n ns ih => exact ih

theorem sub?_close : (b.close n).sub? k = if k = n then (b.sub? k).map (·.close) else b.sub? k := by
  unfold close
  split
  · next h =>
      split
      · next hk => rw [hk, h]; rfl
      · rfl
  · next s h =>
      split
      · next hc =>
          split
          · next hk => rw [hk, h, Option.map_some, Subscription.close_of_closed hc]
          · rfl
      · split
        · exact sub?_modifySub
        · exact sub?_modifySub

/-- The registry is told where a subscription in it was open. -/
theorem registry_close : (b.close n).registry =
    match b.sub? n with
    | none => b.registry
    | some s => if s.closed = false ∧ s.attached = true then leave s.runId n b.registry
      else b.registry := by
  unfold close
  cases h : b.sub? n with
  | none => rfl
  | some s =>
      cases hc : s.closed with
      | true => simp [hc]
      | false => cases ha : s.attached <;> simp [hc, ha, modifySub]

/-- Closing subscriptions of a run that is not in the registry. -/
theorem closeAll_of_not_mem {ns : List Nat} (hid : id ∉ b.registry.map (·.1))
    (h : ∀ n ∈ ns, ∀ s, b.sub? n = some s → s.runId = id) :
    (b.closeAll ns).registry = b.registry ∧ ∀ k, (b.closeAll ns).sub? k =
      if k ∈ ns then (b.sub? k).map (·.close) else b.sub? k := by
  induction ns generalizing b with
  | nil => exact ⟨rfl, fun k => by simp [closeAll]⟩
  | cons n ns ih =>
      have hr : (b.close n).registry = b.registry := by
        rw [registry_close]
        split
        · rfl
        · next s hs =>
            rw [h n List.mem_cons_self s hs, leave_of_not_mem hid, ite_self]
      have hs : ∀ m ∈ ns, ∀ s, (b.close n).sub? m = some s → s.runId = id := by
        intro m hm s hs
        rw [sub?_close] at hs
        split at hs
        · obtain ⟨s₀, h₀, rfl⟩ := Option.map_eq_some_iff.mp hs
          rw [Subscription.runId_close]
          exact h m (List.mem_cons_of_mem _ hm) s₀ h₀
        · exact h m (List.mem_cons_of_mem _ hm) s hs
      obtain ⟨hreg, hsub⟩ := ih (b := b.close n) (hr ▸ hid) hs
      refine ⟨hreg.trans hr, fun k => (hsub k).trans ?_⟩
      rw [sub?_close]
      by_cases hk : k = n
      · subst hk
        cases b.sub? k with
        | none => simp
        | some s => simp [Subscription.close_of_closed Subscription.closed_close]
      · simp [hk]

/-! ## 4. Consistent broadcasters -/

/-- The registry and the subscriptions agree, and every queue is in order. -/
structure Consistent (b : Broadcaster) : Prop where
  keys : (b.registry.map (·.1)).Nodup
  nodup : ∀ id, (b.subscribers id).Nodup
  mem : ∀ id n, n ∈ b.subscribers id ↔
    ∃ s, b.sub? n = some s ∧ s.runId = id ∧ s.attached = true ∧ s.closed = false
  queues : ∀ n s, b.sub? n = some s → ∃ events, s.Queues events

theorem consistent_empty : Consistent {} :=
  ⟨.nil, fun _ => .nil, fun _ _ => ⟨nofun, nofun⟩, nofun⟩

theorem Consistent.lt_length (h : b.Consistent) (hn : n ∈ b.subscribers id) :
    n < b.subscriptions.length := by
  obtain ⟨s, hs, -⟩ := (h.mem id n).mp hn
  exact (List.getElem?_eq_some_iff.mp hs).1

/-- A change of subscriptions that leaves open what is open, under its run, leaves the broadcaster
    consistent. -/
theorem Consistent.modifySub (h : b.Consistent) {f : Subscription → Subscription}
    (hr : ∀ s, (f s).runId = s.runId) (ha : ∀ s, (f s).attached = s.attached)
    (hc : ∀ s, (f s).closed = s.closed)
    (hq : ∀ s events, b.sub? n = some s → s.Queues events → ∃ events, (f s).Queues events) :
    (b.modifySub n f).Consistent := by
  refine ⟨h.keys, h.nodup, fun id m => (h.mem id m).trans ?_, fun m s hs => ?_⟩
  · rw [sub?_modifySub]
    split
    · simp [hr, ha, hc]
    · rfl
  · rw [sub?_modifySub] at hs
    split at hs
    · next hm =>
        obtain ⟨s₀, h₀, rfl⟩ := Option.map_eq_some_iff.mp hs
        obtain ⟨events, he⟩ := h.queues m s₀ h₀
        exact hq s₀ events (hm ▸ h₀) he
    · exact h.queues m s hs

/-- **Closing** a subscription takes it off the list. -/
theorem subscribers_close (h : b.Consistent) : (b.close n).subscribers r = (b.subscribers r).erase n := by
  have hreg := registry_close (b := b) (n := n)
  cases hs : b.sub? n with
  | none =>
      have hn : n ∉ b.subscribers r := by
        rw [h.mem, hs]
        simp
      rw [List.erase_of_not_mem hn]
      rw [hs] at hreg
      unfold subscribers
      rw [hreg]
  | some s =>
      rw [hs] at hreg
      simp only at hreg
      split at hreg
      · next ho =>
          have e : (b.close n).subscribers r = subscribers ⟨b.subscriptions, leave s.runId n b.registry⟩ r := by
            unfold subscribers
            rw [hreg]
          rw [e, subscribers_leave _ h.keys]
          split
          · rfl
          · next hr =>
              refine (List.erase_of_not_mem fun hn => hr ?_).symm
              obtain ⟨s', hs', hr', -⟩ := (h.mem r n).mp hn
              rw [hs] at hs'
              cases hs'
              exact hr'.symm
      · next ho =>
          have hn : n ∉ b.subscribers r := by
            rw [h.mem, hs]
            rintro ⟨s', hs', -, ha, hc⟩
            cases hs'
            exact ho ⟨hc, ha⟩
          rw [List.erase_of_not_mem hn]
          unfold subscribers
          rw [hreg]

theorem Consistent.close (h : b.Consistent) : (b.close n).Consistent := by
  refine ⟨?_, fun id => ?_, fun id m => ?_, fun m s hs => ?_⟩
  · rw [registry_close]
    split
    · exact h.keys
    · split
      · exact (keys_leave _).nodup h.keys
      · exact h.keys
  · rw [subscribers_close h]
    exact (h.nodup id).erase n
  · rw [subscribers_close h, (h.nodup id).mem_erase_iff, h.mem, sub?_close]
    by_cases hm : m = n
    · subst hm
      cases b.sub? m <;> simp
    · simp [hm]
  · rw [sub?_close] at hs
    split at hs
    · obtain ⟨s₀, h₀, rfl⟩ := Option.map_eq_some_iff.mp hs
      obtain ⟨events, he⟩ := h.queues m s₀ h₀
      exact ⟨events, he.close⟩
    · exact h.queues m s hs

/-- **Publishing**: every open subscription of the run receives the event; a terminal event leaves
    the run without one. -/
theorem publish_spec (h : b.Consistent) :
    (∀ k, (b.publish id e).sub? k =
      if k ∈ b.subscribers id then (b.sub? k).map (·.receive e) else b.sub? k) ∧
    (b.publish id e).registry =
      if e.isTerminal then removeRun id b.registry else b.registry := by
  unfold publish
  cases ht : e.isTerminal with
  | false =>
      refine ⟨fun k => ?_, registry_puts _⟩
      refine (sub?_puts (h.nodup id)).trans ?_
      simp [Subscription.receive, ht]
  | true =>
      simp only [if_true]
      generalize hb' : (b.subscribers id).foldl (fun b n => b.put n e)
        { b with registry := removeRun id b.registry } = b'
      have hreg : b'.registry = removeRun id b.registry := hb' ▸ registry_puts _
      have hsub (k) : b'.sub? k =
          if k ∈ b.subscribers id then (b.sub? k).map (·.put e) else b.sub? k :=
        hb' ▸ sub?_puts (h.nodup id)
      have hid : ∀ n ∈ b.subscribers id, ∀ s, b'.sub? n = some s → s.runId = id := by
        intro n hn s hs
        obtain ⟨s₀, h₀, hr, -⟩ := (h.mem id n).mp hn
        rw [hsub, if_pos hn, h₀] at hs
        cases hs
        rw [Subscription.runId_put, hr]
      obtain ⟨hreg', hsub'⟩ := closeAll_of_not_mem (hreg ▸ not_mem_keys_removeRun b.registry) hid
      refine ⟨fun k => ?_, hreg'.trans hreg⟩
      rw [hsub', hsub]
      split
      · simp only [Option.map_map]
        refine Option.map_congr fun s _ => ?_
        simp [Subscription.receive, ht]
      · rfl

theorem sub?_publish (h : b.Consistent) : (b.publish id e).sub? k =
    if k ∈ b.subscribers id then (b.sub? k).map (·.receive e) else b.sub? k :=
  (publish_spec h).1 k

theorem subscribers_publish (h : b.Consistent) : (b.publish id e).subscribers r =
    if e.isTerminal = true ∧ r = id then [] else b.subscribers r := by
  have hreg := (@publish_spec b id e h).2
  split at hreg
  · next ht =>
      have e' : (b.publish id e).subscribers r = subscribers ⟨b.subscriptions, removeRun id b.registry⟩ r := by
        unfold subscribers
        rw [hreg]
      rw [e', subscribers_removeRun]
      simp [ht]
  · next ht =>
      unfold subscribers
      rw [hreg, if_neg (fun h => ht h.1)]

theorem Consistent.put (h : b.Consistent) : (b.put n e).Consistent := by
  refine h.modifySub (by simp) (by simp) (by simp) fun s events _ he => ?_
  cases ho : s.closed with
  | true => exact ⟨events, by rwa [Subscription.put, if_pos ho]⟩
  | false => exact ⟨events ++ [e], he.put ho⟩

theorem Consistent.puts (h : b.Consistent) (ns : List Nat) :
    (ns.foldl (fun b n => b.put n e) b).Consistent := by
  induction ns generalizing b with
  | nil => exact h
  | cons n ns ih => exact ih h.put

/-- A broadcaster stays consistent where a run leaves the registry and its open subscriptions are
    closed. -/
theorem Consistent.leaveRun {b' : Broadcaster} {f : Subscription → Subscription} (h : b.Consistent)
    (hreg : b'.registry = removeRun id b.registry)
    (hsub : ∀ k, b'.sub? k = if k ∈ b.subscribers id then (b.sub? k).map f else b.sub? k)
    (hclosed : ∀ s, (f s).closed = true)
    (hq : ∀ s events, s.closed = false → s.Queues events → ∃ events, (f s).Queues events) :
    b'.Consistent := by
  have hsubscribers (r) : b'.subscribers r = if r = id then [] else b.subscribers r := by
    rw [← subscribers_removeRun b.subscriptions b.registry]
    unfold subscribers
    rw [hreg]
  refine ⟨?_, fun r => ?_, fun r m => ?_, fun m s hs => ?_⟩
  · rw [hreg]
    exact (List.filter_sublist.map _).nodup h.keys
  · rw [hsubscribers]
    split
    · exact .nil
    · exact h.nodup r
  · rw [hsubscribers, hsub]
    by_cases hm : m ∈ b.subscribers id
    · -- what is on the list of the run is on no other list, and closed afterwards
      have hother : m ∈ b.subscribers r → r = id := by
        rw [h.mem]
        rintro ⟨s, hs, hr, -⟩
        obtain ⟨s', hs', hr', -⟩ := (h.mem id m).mp hm
        rw [hs] at hs'
        cases hs'
        exact hr.symm.trans hr'
      rw [if_pos hm]
      cases b.sub? m <;> by_cases hr : r = id <;> simp_all
    · rw [if_neg hm, ← h.mem]
      split
      · next hr => simp [hr, hm]
      · rfl
  · rw [hsub] at hs
    split at hs
    · next hm =>
        obtain ⟨s₀, h₀, rfl⟩ := Option.map_eq_some_iff.mp hs
        obtain ⟨s₁, h₁, -, -, ho⟩ := (h.mem id m).mp hm
        rw [h₀] at h₁
        cases h₁
        obtain ⟨events, he⟩ := h.queues m s₀ h₀
        exact hq s₀ events ho he
    · exact h.queues m s hs

theorem Consistent.publish (h : b.Consistent) : (b.publish id e).Consistent := by
  cases ht : e.isTerminal with
  | false =>
      have hputs : b.publish id e = (b.subscribers id).foldl (fun b n => b.put n e) b := by
        unfold Broadcaster.publish
        rw [ht]
        rfl
      rw [hputs]
      exact h.puts _
  | true =>
      refine h.leaveRun (by rw [(publish_spec h).2, if_pos ht]) (fun _ => sub?_publish h) (fun s => ?_)
        fun s events ho he => ⟨_, he.receive ho⟩
      rw [Subscription.receive, if_pos ht, Subscription.closed_close]

/-- A subscription that is new takes the next number. -/
theorem sub?_append (s : Subscription) (registry : List (String × List Nat)) :
    sub? ⟨b.subscriptions ++ [s], registry⟩ k =
      if k = b.subscriptions.length then some s else b.sub? k := by
  unfold sub?
  by_cases hk : k = b.subscriptions.length
  · subst hk
    simp
  · rw [if_neg hk]
    rcases Nat.lt_or_gt_of_ne hk with hlt | hgt
    · exact List.getElem?_append_left hlt
    · have hlen : (b.subscriptions ++ [s]).length ≤ k := by
        rw [List.length_append]
        exact hgt
      rw [List.getElem?_eq_none hlen, List.getElem?_eq_none (Nat.le_of_lt hgt)]

/-- **Subscribing** to a run, with events to begin with. -/
theorem subscribe_spec (b : Broadcaster) (id : String) (events : List Event) :
    (∀ k, (b.subscribe id events).2.sub? k =
      if k = b.subscriptions.length then some { runId := id, queue := events.map .event }
      else b.sub? k) ∧
    ∀ r, (b.subscribe id events).2.subscribers r =
      if r = id then b.subscribers r ++ [b.subscriptions.length] else b.subscribers r := by
  refine ⟨fun k => ?_, fun _ => subscribers_enter _ _⟩
  unfold Broadcaster.subscribe
  rw [Subscription.foldl_put rfl]
  exact sub?_append _ _

theorem Consistent.subscribe (h : b.Consistent) {events : List Event} :
    (b.subscribe id events).2.Consistent := by
  obtain ⟨hsub, hlist⟩ := subscribe_spec b id events
  have hnew (r) : b.subscriptions.length ∉ b.subscribers r := fun hm => Nat.lt_irrefl _ (h.lt_length hm)
  refine ⟨nodup_keys_enter h.keys, fun r => ?_, fun r m => ?_, fun m s hs => ?_⟩
  · rw [hlist]
    split
    · exact List.nodup_append.mpr ⟨h.nodup r, List.nodup_singleton _, fun a ha c hc => by
        rw [List.mem_singleton.mp hc]
        rintro rfl
        exact hnew r ha⟩
    · exact h.nodup r
  · rw [hlist, hsub]
    by_cases hm : m = b.subscriptions.length
    · subst hm
      by_cases hr : r = id
      · simp [hr]
      · simp [hr, Ne.symm hr, hnew r]
    · have : m ∈ (if r = id then b.subscribers r ++ [b.subscriptions.length] else b.subscribers r) ↔
          m ∈ b.subscribers r := by
        split <;> simp [hm]
      rw [this, if_neg hm, h.mem]
  · rw [hsub] at hs
    split at hs
    · cases hs
      exact ⟨events, (List.append_nil _).symm⟩
    · exact h.queues m s hs

/-- A closed subscription with one event is in no list. -/
theorem addClosed_spec (b : Broadcaster) (id : String) (e : Event) :
    (∀ k, (b.addClosed id [e]).2.sub? k =
      if k = b.subscriptions.length then
        some { runId := id, queue := [.event e, .endOfStream], closed := true, attached := false }
      else b.sub? k) ∧
    ∀ r, (b.addClosed id [e]).2.subscribers r = b.subscribers r :=
  ⟨fun _ => sub?_append _ _, fun _ => rfl⟩

theorem Consistent.addClosed (h : b.Consistent) : (b.addClosed id [e]).2.Consistent := by
  obtain ⟨hsub, hlist⟩ := addClosed_spec b id e
  refine ⟨h.keys, h.nodup, fun r m => ?_, fun m s hs => ?_⟩
  · rw [hlist, hsub]
    by_cases hm : m = b.subscriptions.length
    · subst hm
      simpa using fun hm => Nat.lt_irrefl _ (h.lt_length hm)
    · rw [if_neg hm, h.mem]
  · rw [hsub] at hs
    split at hs
    · cases hs
      exact ⟨[e], rfl⟩
    · exact h.queues m s hs

/-! ## 5. Reading -/

theorem sub?_get : (b.get n).2.sub? k = if k = n then (b.sub? k).map (·.get.2) else b.sub? k := by
  unfold get
  split
  · next h =>
      split
      · next hk => rw [hk, h]; rfl
      · rfl
  · exact sub?_modifySub

theorem subscribers_get : (b.get n).2.subscribers r = b.subscribers r := by
  unfold get
  split <;> rfl

theorem Consistent.get (h : b.Consistent) : (b.get n).2.Consistent := by
  unfold Broadcaster.get
  split
  · exact h
  · refine h.modifySub (by simp) (by simp) (by simp) fun s events _ he => ?_
    cases events with
    | nil => exact ⟨[], he.get_nil.2⟩
    | cons e rest => exact ⟨rest, he.get_cons.2⟩

/-! ## 6. The news of one change -/

/-- Tells the observers of a run one thing after the other. -/
def publishAll (b : Broadcaster) (id : String) (news : List Happening) : Broadcaster :=
  news.foldl (fun b x => b.publish id ⟨id, x⟩) b

variable {news : List Happening}

theorem publishAll_cons (b : Broadcaster) (id : String) (x : Happening) (news : List Happening) :
    b.publishAll id (x :: news) = (b.publish id ⟨id, x⟩).publishAll id news := rfl

theorem Consistent.publishAll (h : b.Consistent) (id : String) (news : List Happening) :
    (b.publishAll id news).Consistent := by
  induction news generalizing b with
  | nil => exact h
  | cons x news ih => exact ih h.publish

/-- Terminal news leaves the run without an open subscription. -/
theorem subscribers_publishAll (h : b.Consistent) : (b.publishAll id news).subscribers r =
    if r = id ∧ ∃ x ∈ news, x.isTerminal = true then [] else b.subscribers r := by
  induction news generalizing b with
  | nil => exact (if_neg (by simp)).symm
  | cons x news ih =>
      rw [publishAll_cons, ih h.publish, subscribers_publish h]
      by_cases hr : r = id
      · cases hx : x.isTerminal <;> simp [hr, hx, Event.isTerminal]
      · simp [hr]

/-! ## 7. Streams -/

/-- A subscription belongs to a run, is open or closed, and holds these events. -/
def Streams (b : Broadcaster) (n : Nat) (id : String) (closed : Bool) (events : List Event) : Prop :=
  ∃ s, b.sub? n = some s ∧ s.runId = id ∧ s.attached = true ∧ s.closed = closed ∧ s.Queues events

variable {closed : Bool} {events : List Event}

theorem mem_of_streams (h : b.Consistent) (hs : b.Streams n id false events) : n ∈ b.subscribers id := by
  obtain ⟨s, hn, hr, ha, hc, -⟩ := hs
  exact (h.mem id n).mpr ⟨s, hn, hr, ha, hc⟩

theorem not_mem_of_streams (h : b.Consistent) (hs : b.Streams n id closed events)
    (hc : r ≠ id ∨ closed = true) : n ∉ b.subscribers r := by
  obtain ⟨s, hn, hr, -, hcl, -⟩ := hs
  rw [h.mem]
  rintro ⟨s', hn', hr', -, hc'⟩
  rw [hn] at hn'
  cases hn'
  rcases hc with hc | hc
  · exact hc (hr'.symm.trans hr)
  · rw [← hcl, hc'] at hc
    cases hc

theorem Streams.publish (h : b.Consistent) (hs : b.Streams n id false events) :
    (b.publish id e).Streams n id e.isTerminal (events ++ [e]) := by
  have hm := mem_of_streams h hs
  obtain ⟨s, hn, hr, ha, hc, hq⟩ := hs
  refine ⟨s.receive e, ?_, ?_, ?_, ?_, hq.receive hc⟩
  · rw [sub?_publish h, if_pos hm, hn, Option.map_some]
  · unfold Subscription.receive
    split <;> simp [hr]
  · unfold Subscription.receive
    split <;> simp [ha]
  · unfold Subscription.receive
    split
    · next ht => simp [ht]
    · next ht => simp [ht, hc]

/-- A subscription of another run, and a closed one, hear nothing. -/
theorem Streams.publish_of_ne (h : b.Consistent) (hs : b.Streams n id closed events)
    (hc : r ≠ id ∨ closed = true) : (b.publish r e).Streams n id closed events := by
  have hm := not_mem_of_streams h hs hc
  obtain ⟨s, hn, hrest⟩ := hs
  refine ⟨s, ?_, hrest⟩
  rw [sub?_publish h, if_neg hm, hn]

theorem Streams.publishAll_of_ne (h : b.Consistent) (hs : b.Streams n id closed events)
    (hc : r ≠ id ∨ closed = true) : (b.publishAll r news).Streams n id closed events := by
  induction news generalizing b with
  | nil => exact hs
  | cons x news ih => exact ih h.publish (hs.publish_of_ne h hc)

theorem Streams.publishAll (h : b.Consistent) (hs : b.Streams n id false events)
    (hx : ∀ x ∈ news, x.isTerminal = false) :
    (b.publishAll id news).Streams n id false (events ++ news.map (⟨id, ·⟩)) := by
  induction news generalizing b events with
  | nil =>
      rw [List.map_nil, List.append_nil]
      exact hs
  | cons x news ih =>
      have hs' := hs.publish (e := ⟨id, x⟩) h
      rw [show Event.isTerminal ⟨id, x⟩ = false from hx x List.mem_cons_self] at hs'
      have := ih h.publish hs' fun y hy => hx y (List.mem_cons_of_mem _ hy)
      rwa [List.append_assoc] at this

/-- Whatever is told, a stream loses nothing by it. -/
theorem Streams.publishAll_append (h : b.Consistent) (hs : b.Streams n id closed events) :
    ∃ closed' more, (b.publishAll id news).Streams n id closed' (events ++ more) := by
  induction news generalizing b closed events with
  | nil => exact ⟨closed, [], by rwa [List.append_nil]⟩
  | cons x news ih =>
      cases closed with
      | true => exact ⟨true, [], by rw [List.append_nil]; exact hs.publishAll_of_ne h (.inr rfl)⟩
      | false =>
          obtain ⟨closed', more, hm⟩ := ih h.publish (hs.publish (e := ⟨id, x⟩) h)
          exact ⟨closed', ⟨id, x⟩ :: more, by rwa [List.append_assoc] at hm⟩

theorem Streams.close (hs : b.Streams n id closed events) :
    (b.close n).Streams n id true events := by
  obtain ⟨s, hn, hr, ha, -, hq⟩ := hs
  refine ⟨s.close, ?_, by simp [hr], by simp [ha], Subscription.closed_close, hq.close⟩
  rw [sub?_close, if_pos rfl, hn, Option.map_some]

theorem Streams.close_of_ne (hs : b.Streams n id closed events) (hk : n ≠ k) :
    (b.close k).Streams n id closed events := by
  obtain ⟨s, hn, hrest⟩ := hs
  refine ⟨s, ?_, hrest⟩
  rw [sub?_close, if_neg hk, hn]

theorem Streams.lt_length (hs : b.Streams n id closed events) : n < b.subscriptions.length := by
  obtain ⟨s, hn, -⟩ := hs
  exact (List.getElem?_eq_some_iff.mp hn).1

theorem Streams.subscribe (hs : b.Streams n id closed events) {initial : List Event} :
    (b.subscribe r initial).2.Streams n id closed events := by
  have hne : n ≠ b.subscriptions.length := Nat.ne_of_lt hs.lt_length
  obtain ⟨s, hn, hrest⟩ := hs
  refine ⟨s, ?_, hrest⟩
  rw [(subscribe_spec b r initial).1, if_neg hne, hn]

theorem Streams.addClosed (hs : b.Streams n id closed events) :
    (b.addClosed r [e]).2.Streams n id closed events := by
  have hne : n ≠ b.subscriptions.length := Nat.ne_of_lt hs.lt_length
  obtain ⟨s, hn, hrest⟩ := hs
  refine ⟨s, ?_, hrest⟩
  rw [(addClosed_spec b r e).1, if_neg hne, hn]

/-- The stream that a subscriber was just given. -/
theorem streams_subscribe (b : Broadcaster) (id : String) (events : List Event) :
    (b.subscribe id events).2.Streams b.subscriptions.length id false events :=
  ⟨_, ((subscribe_spec b id events).1 _).trans (if_pos rfl), rfl, rfl, rfl, (List.append_nil _).symm⟩

theorem Streams.get_of_ne (hs : b.Streams n id closed events) (hk : n ≠ k) :
    (b.get k).2.Streams n id closed events := by
  obtain ⟨s, hn, hrest⟩ := hs
  refine ⟨s, ?_, hrest⟩
  rw [sub?_get, if_neg hk, hn]

/-- **Reading** takes the first event, if there is one. -/
theorem Streams.get (hs : b.Streams n id closed events) :
    (b.get n).1 = events.head? ∧ (b.get n).2.Streams n id closed events.tail := by
  obtain ⟨s, hn, hr, ha, hc, hq⟩ := hs
  have hfst : (b.get n).1 = s.get.1 := by
    unfold Broadcaster.get
    rw [hn]
  have hsnd : (b.get n).2.sub? n = some s.get.2 := by
    rw [sub?_get, if_pos rfl, hn, Option.map_some]
  cases events with
  | nil => exact ⟨hfst.trans hq.get_nil.1, _, hsnd, by simp [hr], by simp [ha], by simp [hc], hq.get_nil.2⟩
  | cons e rest =>
      exact ⟨hfst.trans hq.get_cons.1, _, hsnd, by simp [hr], by simp [ha], by simp [hc], hq.get_cons.2⟩

end Broadcaster

end StepRunner
