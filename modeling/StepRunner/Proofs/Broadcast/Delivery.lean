import StepRunner.Proofs.Broadcast

/-!
# What a subscription delivers

A history of a broadcaster is a list of `Act`s: subscribing, publishing, giving an event to one
subscription, reading, closing. What a subscription is meant to deliver is told by the acts alone:
`Act.brings?` is the event that an act has for it, `Act.closes` says that the act closes it, and
`brought` are the events up to there.

* `handed_and_waiting`: what was read of a subscription, and then what still waits in its queue, are its
  first events and those that were brought to it; it is closed just if some act closed it, it ends with
  a terminal event, a reader at the end finds nothing any more, and acts that concern others leave it as
  it is.
-/

namespace StepRunner

/-! ## 1. Reading to the end, and closing a run -/

namespace Subscription

variable {s : Subscription} {events : List Event}

@[simp] theorem closed_drain : s.drain.2.closed = s.closed := rfl

@[simp] theorem runId_drain : s.drain.2.runId = s.runId := rfl

@[simp] theorem attached_drain : s.drain.2.attached = s.attached := rfl

theorem drainQueue_append (events : List Event) (rest : List QueueItem) :
    drainQueue (events.map .event ++ rest) = (events ++ (drainQueue rest).1, (drainQueue rest).2) := by
  induction events with
  | nil => rfl
  | cons e events ih => rw [List.map_cons, List.cons_append, drainQueue, ih, List.cons_append]

/-- Reading to the end takes all events, and leaves the end mark where there is one. -/
theorem Queues.drain (h : s.Queues events) : s.drain.1 = events ∧ s.drain.2.Queues [] := by
  have hend : drainQueue (if s.closed then [.endOfStream] else []) =
      ([], if s.closed then [.endOfStream] else []) := by
    cases s.closed <;> rfl
  have hq : drainQueue s.queue = (events, if s.closed then [.endOfStream] else []) := by
    rw [h, drainQueue_append, hend, List.append_nil]
  unfold Subscription.drain
  rw [hq]
  exact ⟨rfl, rfl⟩

theorem Queues.waiting (h : s.Queues events) : s.waiting = events := by
  unfold Subscription.waiting
  rw [h, List.filterMap_append, List.filterMap_map]
  cases s.closed <;> simp

end Subscription

namespace Broadcaster

variable {b b' : Broadcaster} {n k : Nat} {id r : String} {e : Event} {closed : Bool}
  {events : List Event}

theorem sub?_drain :
    (b.drain n).2.sub? k = if k = n then (b.sub? k).map (·.drain.2) else b.sub? k := by
  unfold drain
  split
  · next h =>
      split
      · next hk => rw [hk, h]; rfl
      · rfl
  · exact sub?_modifySub

theorem Consistent.drain (h : b.Consistent) : (b.drain n).2.Consistent := by
  unfold Broadcaster.drain
  split
  · exact h
  · exact h.modifySub (by simp) (by simp) (by simp) fun s events _ he => ⟨[], he.drain.2⟩

/-- **Closing a run** closes its open subscriptions and takes it out of the registry. -/
theorem closeRun_spec (h : b.Consistent) :
    (∀ k, (b.closeRun id).sub? k =
      if k ∈ b.subscribers id then (b.sub? k).map (·.close) else b.sub? k) ∧
    (b.closeRun id).registry = removeRun id b.registry := by
  have hid : ∀ n ∈ b.subscribers id, ∀ s, b.sub? n = some s → s.runId = id := by
    intro n hn s hs
    obtain ⟨s', hs', hr, -⟩ := (h.mem id n).mp hn
    rw [hs] at hs'
    cases hs'
    exact hr
  obtain ⟨hreg, hsub⟩ := closeAll_of_not_mem (b := ⟨b.subscriptions, removeRun id b.registry⟩)
    (not_mem_keys_removeRun b.registry) hid
  exact ⟨hsub, hreg⟩

theorem Consistent.closeRun (h : b.Consistent) : (b.closeRun id).Consistent :=
  h.leaveRun (closeRun_spec h).2 (closeRun_spec h).1 (fun _ => Subscription.closed_close)
    fun _ events _ he => ⟨events, he.close⟩

theorem Streams.put (hs : b.Streams n id closed events) :
    (b.put n e).Streams n id closed (if closed then events else events ++ [e]) := by
  obtain ⟨s, hn, hr, ha, rfl, hq⟩ := hs
  refine ⟨s.put e, ?_, by simp [hr], by simp [ha], by simp, ?_⟩
  · rw [sub?_put, if_pos rfl, hn, Option.map_some]
  · cases ho : s.closed with
    | true => rwa [Subscription.put, if_pos ho]
    | false => exact hq.put ho

theorem Streams.put_of_ne (hs : b.Streams n id closed events) (hk : n ≠ k) :
    (b.put k e).Streams n id closed events := by
  obtain ⟨s, hn, hrest⟩ := hs
  refine ⟨s, ?_, hrest⟩
  rw [sub?_put, if_neg hk, hn]

/-- **Reading to the end** takes all events. -/
theorem Streams.drain (hs : b.Streams n id closed events) :
    (b.drain n).1 = events ∧ (b.drain n).2.Streams n id closed [] := by
  obtain ⟨s, hn, hr, ha, hc, hq⟩ := hs
  have hfst : (b.drain n).1 = s.drain.1 := by
    unfold Broadcaster.drain
    rw [hn]
  refine ⟨hfst.trans hq.drain.1, s.drain.2, ?_, hr, ha, hc, hq.drain.2⟩
  rw [sub?_drain, if_pos rfl, hn, Option.map_some]

theorem Streams.drain_of_ne (hs : b.Streams n id closed events) (hk : n ≠ k) :
    (b.drain k).2.Streams n id closed events := by
  obtain ⟨s, hn, hrest⟩ := hs
  refine ⟨s, ?_, hrest⟩
  rw [sub?_drain, if_neg hk, hn]

theorem Streams.closeRun (h : b.Consistent) (hs : b.Streams n id closed events) :
    (b.closeRun id).Streams n id true events := by
  cases closed with
  | true =>
      have hm := not_mem_of_streams (r := id) h hs (.inr rfl)
      obtain ⟨s, hn, hrest⟩ := hs
      exact ⟨s, by rw [(closeRun_spec h).1, if_neg hm, hn], hrest⟩
  | false =>
      have hm := mem_of_streams h hs
      obtain ⟨s, hn, hr, ha, -, hq⟩ := hs
      refine ⟨s.close, ?_, by simp [hr], by simp [ha], by simp, hq.close⟩
      rw [(closeRun_spec h).1, if_pos hm, hn, Option.map_some]

theorem Streams.closeRun_of_ne (h : b.Consistent) (hs : b.Streams n id closed events) (hr : r ≠ id) :
    (b.closeRun r).Streams n id closed events := by
  have hm := not_mem_of_streams h hs (.inl hr)
  obtain ⟨s, hn, hrest⟩ := hs
  exact ⟨s, by rw [(closeRun_spec h).1, if_neg hm, hn], hrest⟩

/-! ## 2. Histories -/

/-- What somebody may do with a broadcaster, or with one of its subscriptions. -/
inductive Act where
  /-- Opens a subscription of a run, with events to begin with. -/
  | subscribe (runId : String) (initial : List Event)
  | publish (runId : String) (e : Event)
  | put (n : Nat) (e : Event)
  /-- Asks for the next event, as each step of an iteration does. -/
  | get (n : Nat)
  /-- Reads up to the end of the stream, or as far as there is something to read. -/
  | iterate (n : Nat)
  | close (n : Nat)
  /-- Leaves the block that the subscription was opened for. -/
  | exit (n : Nat)
  | closeRun (runId : String)

/-- The broadcaster after an act. -/
def perform (b : Broadcaster) : Act → Broadcaster
  | .subscribe id initial => (b.subscribe id initial).2
  | .publish id e => b.publish id e
  | .put n e => b.put n e
  | .get n => (b.get n).2
  | .iterate n => (b.drain n).2
  | .close n => b.close n
  | .exit n => b.close n
  | .closeRun id => b.closeRun id

/-- The broadcaster after a history. -/
def after (b : Broadcaster) (h : List Act) : Broadcaster := h.foldl perform b

/-- The events of a subscription that an act hands out to its reader. -/
def handsOut (b : Broadcaster) (n : Nat) : Act → List Event
  | .get m => if m = n then (b.get n).1.toList else []
  | .iterate m => if m = n then (b.drain n).1 else []
  | _ => []

/-- The events of a subscription that were handed out in a history, in order. -/
def handed (b : Broadcaster) (n : Nat) : List Act → List Event
  | [] => []
  | a :: h => b.handsOut n a ++ (b.perform a).handed n h

namespace Act

/-- The event that an act has for a subscription of a run. -/
def brings? (id : String) (n : Nat) : Act → Option Event
  | .publish r e => if r = id then some e else none
  | .put m e => if m = n then some e else none
  | _ => none

/-- The act closes a subscription of a run, if it is open. -/
def closes (id : String) (n : Nat) : Act → Bool
  | .publish r e => r = id && e.isTerminal
  | .close m => m = n
  | .exit m => m = n
  | .closeRun r => r = id
  | _ => false

/-- The act is about a subscription or its run. -/
def concerns (id : String) (n : Nat) : Act → Bool
  | .subscribe _ _ => false
  | .publish r _ => r = id
  | .put m _ => m = n
  | .get m => m = n
  | .iterate m => m = n
  | .close m => m = n
  | .exit m => m = n
  | .closeRun r => r = id

end Act

/-- The events that a history has for a subscription of a run, up to the act that closes it. -/
def brought (id : String) (n : Nat) : List Act → List Event
  | [] => []
  | a :: h => (a.brings? id n).toList ++ if a.closes id n then [] else brought id n h

variable {h before : List Act} {a : Act}

theorem Consistent.perform (hb : b.Consistent) (a : Act) : (b.perform a).Consistent := by
  cases a with
  | subscribe id initial => exact hb.subscribe
  | publish id e => exact hb.publish
  | put n e => exact hb.put
  | get n => exact hb.get
  | iterate n => exact hb.drain
  | close n => exact hb.close
  | exit n => exact hb.close
  | closeRun id => exact hb.closeRun

theorem Consistent.after (hb : b.Consistent) (h : List Act) : (b.after h).Consistent := by
  induction h generalizing b with
  | nil => exact hb
  | cons a h ih => exact ih (hb.perform a)

/-! ## 3. One act -/

/-- **What one act does to a subscription**: what it hands out and what then waits are what waited
    before and what the act brings. -/
theorem streams_perform (hb : b.Consistent) (hs : b.Streams n id closed events) (a : Act) :
    ∃ left, (b.perform a).Streams n id (closed || a.closes id n) left ∧
      b.handsOut n a ++ left = events ++ if closed then [] else (a.brings? id n).toList := by
  have hkept {b' : Broadcaster} (hs' : b'.Streams n id closed events) (hn : a.closes id n = false)
      (hb : a.brings? id n = none) (ho : b.handsOut n a = []) :
      ∃ left, b'.Streams n id (closed || a.closes id n) left ∧
        b.handsOut n a ++ left = events ++ if closed then [] else (a.brings? id n).toList := by
    refine ⟨events, by rwa [hn, Bool.or_false], ?_⟩
    rw [hb, ho]
    simp
  cases a with
  | subscribe r initial => exact hkept hs.subscribe rfl rfl rfl
  | publish r e =>
      by_cases hr : r = id
      · subst hr
        cases closed with
        | true =>
            exact ⟨events, hs.publish_of_ne hb (.inr rfl), by simp [handsOut]⟩
        | false =>
            refine ⟨events ++ [e], ?_, by simp [handsOut, Act.brings?]⟩
            simpa [Act.closes, perform] using hs.publish (e := e) hb
      · exact hkept (hs.publish_of_ne hb (.inl hr)) (by simp [Act.closes, hr])
          (if_neg hr) rfl
  | put m e =>
      by_cases hm : m = n
      · subst hm
        refine ⟨_, by simpa [Act.closes, perform] using hs.put (e := e), ?_⟩
        cases closed <;> simp [handsOut, Act.brings?]
      · exact hkept (hs.put_of_ne (Ne.symm hm)) rfl (if_neg hm) rfl
  | get m =>
      by_cases hm : m = n
      · subst hm
        obtain ⟨hfst, hleft⟩ := hs.get
        refine ⟨events.tail, by simpa [Act.closes, perform] using hleft, ?_⟩
        rw [handsOut, if_pos rfl, hfst]
        cases events <;> simp [Act.brings?]
      · exact hkept (hs.get_of_ne (Ne.symm hm)) rfl rfl (if_neg hm)
  | iterate m =>
      by_cases hm : m = n
      · subst hm
        obtain ⟨hfst, hleft⟩ := hs.drain
        refine ⟨[], by simpa [Act.closes, perform] using hleft, ?_⟩
        rw [handsOut, if_pos rfl, hfst]
        simp [Act.brings?]
      · exact hkept (hs.drain_of_ne (Ne.symm hm)) rfl rfl (if_neg hm)
  | close m =>
      by_cases hm : m = n
      · subst hm
        refine ⟨events, by simpa [Act.closes, perform] using hs.close, by simp [handsOut, Act.brings?]⟩
      · exact hkept (hs.close_of_ne (Ne.symm hm)) (by simp [Act.closes, hm]) rfl rfl
  | exit m =>
      by_cases hm : m = n
      · subst hm
        refine ⟨events, by simpa [Act.closes, perform] using hs.close, by simp [handsOut, Act.brings?]⟩
      · exact hkept (hs.close_of_ne (Ne.symm hm)) (by simp [Act.closes, hm]) rfl rfl
  | closeRun r =>
      by_cases hr : r = id
      · subst hr
        refine ⟨events, by simpa [Act.closes, perform] using hs.closeRun hb, by simp [handsOut, Act.brings?]⟩
      · exact hkept (hs.closeRun_of_ne hb hr) (by simp [Act.closes, hr]) rfl rfl

/-- An act that does not concern a subscription leaves it as it is. -/
theorem sub?_perform_of_not_concerns (hb : b.Consistent) (hs : b.Streams n id closed events)
    (ha : a.concerns id n = false) : (b.perform a).sub? n = b.sub? n := by
  cases a with
  | subscribe r initial =>
      exact ((subscribe_spec b r initial).1 n).trans (if_neg (Nat.ne_of_lt hs.lt_length))
  | publish r e =>
      have hr : r ≠ id := by simpa [Act.concerns] using ha
      exact (sub?_publish hb).trans (if_neg (not_mem_of_streams hb hs (.inl hr)))
  | put m e =>
      have hm : m ≠ n := by simpa [Act.concerns] using ha
      exact sub?_put.trans (if_neg (Ne.symm hm))
  | get m =>
      have hm : m ≠ n := by simpa [Act.concerns] using ha
      exact sub?_get.trans (if_neg (Ne.symm hm))
  | iterate m =>
      have hm : m ≠ n := by simpa [Act.concerns] using ha
      exact sub?_drain.trans (if_neg (Ne.symm hm))
  | close m =>
      have hm : m ≠ n := by simpa [Act.concerns] using ha
      exact sub?_close.trans (if_neg (Ne.symm hm))
  | exit m =>
      have hm : m ≠ n := by simpa [Act.concerns] using ha
      exact sub?_close.trans (if_neg (Ne.symm hm))
  | closeRun r =>
      have hr : r ≠ id := by simpa [Act.concerns] using ha
      exact ((closeRun_spec hb).1 n).trans (if_neg (not_mem_of_streams hb hs (.inl hr)))

/-! ## 4. Histories -/

/-- **What a history does to a subscription**: by induction on its acts. A subscription that is closed
    gets nothing more. -/
theorem streams_after (hb : b.Consistent) (hs : b.Streams n id closed events) (h : List Act) :
    ∃ left, (b.after h).Streams n id (closed || h.any (·.closes id n)) left ∧
      b.handed n h ++ left = events ++ if closed then [] else brought id n h := by
  induction h generalizing b closed events with
  | nil => exact ⟨events, by simpa [after] using hs, by cases closed <;> simp [handed, brought]⟩
  | cons a h ih =>
      obtain ⟨left, hs', hleft⟩ := streams_perform hb hs a
      obtain ⟨left', hs'', hleft'⟩ := ih (hb.perform a) hs'
      refine ⟨left', by rwa [List.any_cons, ← Bool.or_assoc], ?_⟩
      rw [handed, List.append_assoc, hleft', ← List.append_assoc, hleft, List.append_assoc]
      cases closed with
      | true => rfl
      | false => rfl

theorem brought_append (h more : List Act) : brought id n (h ++ more) =
    brought id n h ++ if h.any (·.closes id n) then [] else brought id n more := by
  induction h with
  | nil => rfl
  | cons a h ih =>
      rw [List.cons_append, brought, ih, brought, List.any_cons]
      cases a.closes id n <;> simp

/-- At the end of a stream nothing more is handed out. -/
theorem handed_of_closed (hb : b.Consistent) (hs : b.Streams n id true []) (h : List Act) :
    b.handed n h = [] := by
  obtain ⟨left, -, hleft⟩ := streams_after hb hs h
  exact (List.append_eq_nil_iff.mp hleft).1

/-- **What a subscription delivers.** After any history somebody subscribes to a run. In any further
    history what is read of the subscription, and then what waits in it, are its first events and those
    that were brought to it until it was closed. A terminal event of the run closes it and is the last
    one; after the last one every reader finds the end; and no act that does not concern the subscription
    or its run changes anything about it. -/
theorem handed_and_waiting (before h : List Act) (id : String) (initial : List Event) :
    let b := (after {} before).subscribe id initial
    ∃ s, (b.2.after h).sub? b.1 = some s ∧ s.runId = id ∧
      b.2.handed b.1 h ++ s.waiting = initial ++ brought id b.1 h ∧
      s.closed = h.any (·.closes id b.1) ∧
      (∀ h₁ e h₂, h = h₁ ++ .publish id e :: h₂ → e.isTerminal = true →
        h₁.any (·.closes id b.1) = false →
        brought id b.1 h = brought id b.1 h₁ ++ [e] ∧ s.closed = true) ∧
      (s.closed = true → s.waiting = [] → ∀ more, (b.2.after h).handed b.1 more = []) ∧
      ∀ a, a.concerns id b.1 = false → ((b.2.after h).perform a).sub? b.1 = some s := by
  intro b
  have hb : b.2.Consistent := (consistent_empty.after before).subscribe
  have hnew : b.2.Streams b.1 id false initial := streams_subscribe (after {} before) id initial
  obtain ⟨left, hs, hleft⟩ := streams_after hb hnew h
  have hb' : (b.2.after h).Consistent := hb.after h
  have hs' := hs
  obtain ⟨s, hn, hr, -, hc, hq⟩ := hs
  rw [Bool.false_or] at hc
  refine ⟨s, hn, hr, ?_, hc, fun h₁ e h₂ hh he hopen => ?_, fun hcl hw more => ?_, fun a ha => ?_⟩
  · rw [hq.waiting]
    exact hleft
  · have hcloses : (Act.publish id e).closes id b.1 = true := by simp [Act.closes, he]
    rw [hc, hh, brought_append, hopen, brought, hcloses, List.any_append, List.any_cons, hcloses]
    simp [Act.brings?]
  · rw [hq.waiting] at hw
    subst hw
    rw [Bool.false_or, ← hc, hcl] at hs'
    exact handed_of_closed hb' hs' more
  · rw [sub?_perform_of_not_concerns hb' hs' ha]
    exact hn

end Broadcaster

end StepRunner
