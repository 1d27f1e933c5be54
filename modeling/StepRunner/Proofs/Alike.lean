import StepRunner.Proofs.Broadcast

/-!
# Broadcasters that nobody can tell apart

Whether the registry would be told of a subscription that closes makes no difference once it is closed.
So it makes none to a subscriber whether his subscription was closed as soon as it was opened, or was
never in the registry.

* `Broadcaster.Alike`: two broadcasters have the same subscriptions but for that, and the same of them
  are open. Every operation leaves them alike, and reading from them gives the same event;
* `alike_subscribe_close`: subscribing and closing on one side, a closed subscription on the other.
-/

namespace StepRunner

namespace Subscription

/-- A subscription as its subscriber sees it. -/
def shown (s : Subscription) : Subscription := { s with attached := true }

theorem shown_close (s : Subscription) : s.close.shown = s.shown.close := by
  obtain ⟨runId, queue, closed, attached⟩ := s
  cases closed <;> rfl

theorem shown_put (s : Subscription) (e : Event) : (s.put e).shown = s.shown.put e := by
  obtain ⟨runId, queue, closed, attached⟩ := s
  cases closed <;> rfl

theorem shown_receive (s : Subscription) (e : Event) :
    (s.receive e).shown = s.shown.receive e := by
  unfold receive
  split
  · rw [shown_close, shown_put]
  · exact shown_put s e

theorem get_shown (s : Subscription) : s.shown.get = (s.get.1, s.get.2.shown) := by
  obtain ⟨runId, queue, closed, attached⟩ := s
  cases queue with
  | nil => rfl
  | cons x rest => cases x <;> rfl

end Subscription

namespace Broadcaster

open Subscription

variable {b b' : Broadcaster} {id : String} {e : Event} {n : Nat}

/-- Two broadcasters have the same subscriptions, as their subscribers see them, and the same of them are
    open. -/
structure Alike (b b' : Broadcaster) : Prop where
  subs : ∀ n, (b'.sub? n).map shown = (b.sub? n).map shown
  subscribers : ∀ id, b'.subscribers id = b.subscribers id

theorem Alike.refl (b : Broadcaster) : b.Alike b := ⟨fun _ => rfl, fun _ => rfl⟩

theorem Alike.symm (h : b.Alike b') : b'.Alike b :=
  ⟨fun n => (h.subs n).symm, fun id => (h.subscribers id).symm⟩

theorem sub?_eq_none_iff : b.sub? n = none ↔ b.subscriptions.length ≤ n := List.getElem?_eq_none_iff

/-- As many subscriptions were opened. -/
theorem Alike.length (h : b.Alike b') : b'.subscriptions.length = b.subscriptions.length := by
  have hnone (n : Nat) : b'.subscriptions.length ≤ n ↔ b.subscriptions.length ≤ n := by
    rw [← sub?_eq_none_iff, ← sub?_eq_none_iff, ← Option.map_eq_none_iff (f := shown), h.subs,
      Option.map_eq_none_iff]
  exact Nat.le_antisymm ((hnone _).mpr (Nat.le_refl _)) ((hnone _).mp (Nat.le_refl _))

/-- What changes one subscription, as its subscriber sees it, changes the other likewise. -/
theorem map_shown_comm {f : Subscription → Subscription} (hf : ∀ s, (f s).shown = f s.shown)
    {x y : Option Subscription} (h : y.map shown = x.map shown) :
    (y.map f).map shown = (x.map f).map shown := by
  have hcomm (z : Option Subscription) : (z.map f).map shown = (z.map shown).map f := by
    cases z with
    | none => rfl
    | some s => exact congrArg some (hf s)
  rw [hcomm, hcomm, h]

/-! ## 1. Operations -/

theorem Alike.close (h : b.Alike b') (hc : b.Consistent) (hc' : b'.Consistent) :
    (b.close n).Alike (b'.close n) := by
  refine ⟨fun k => ?_, fun r => ?_⟩
  · rw [sub?_close, sub?_close]
    split
    · exact map_shown_comm shown_close (h.subs k)
    · exact h.subs k
  · rw [subscribers_close hc, subscribers_close hc', h.subscribers]

theorem Alike.publish (h : b.Alike b') (hc : b.Consistent) (hc' : b'.Consistent) :
    (b.publish id e).Alike (b'.publish id e) := by
  refine ⟨fun k => ?_, fun r => ?_⟩
  · rw [sub?_publish hc, sub?_publish hc', h.subscribers]
    split
    · exact map_shown_comm (fun s => shown_receive s e) (h.subs k)
    · exact h.subs k
  · rw [subscribers_publish hc, subscribers_publish hc', h.subscribers]

theorem Alike.publishAll (h : b.Alike b') (hc : b.Consistent) (hc' : b'.Consistent)
    (news : List Happening) : (b.publishAll id news).Alike (b'.publishAll id news) := by
  induction news generalizing b b' with
  | nil => exact h
  | cons x news ih => exact ih (h.publish hc hc') hc.publish hc'.publish

/-- **Reading** gives the same event. -/
theorem Alike.get (h : b.Alike b') :
    (b'.get n).1 = (b.get n).1 ∧ (b.get n).2.Alike (b'.get n).2 := by
  refine ⟨?_, fun k => ?_, fun r => ?_⟩
  · have hn := h.subs n
    unfold Broadcaster.get
    cases hs : b.sub? n with
    | none =>
        rw [hs, Option.map_none, Option.map_eq_none_iff] at hn
        rw [hn]
    | some s =>
        rw [hs] at hn
        obtain ⟨s', hs', e⟩ := Option.map_eq_some_iff.mp hn
        rw [hs']
        have hget := congrArg (·.get.1) e
        simpa only [get_shown] using hget
  · rw [sub?_get, sub?_get]
    split
    · refine map_shown_comm (fun s => ?_) (h.subs k)
      rw [get_shown]
    · exact h.subs k
  · rw [subscribers_get, subscribers_get, h.subscribers]

theorem Alike.subscribe (h : b.Alike b') : (b.subscribe id [e]).2.Alike (b'.subscribe id [e]).2 := by
  obtain ⟨hsub, hlist⟩ := subscribe_spec b id [e]
  obtain ⟨hsub', hlist'⟩ := subscribe_spec b' id [e]
  refine ⟨fun k => ?_, fun r => ?_⟩
  · rw [hsub, hsub', h.length]
    split
    · rfl
    · exact h.subs k
  · rw [hlist, hlist', h.length, h.subscribers]

theorem Alike.addClosed (h : b.Alike b') :
    (b.addClosed id [e]).2.Alike (b'.addClosed id [e]).2 := by
  obtain ⟨hsub, hlist⟩ := addClosed_spec b id e
  obtain ⟨hsub', hlist'⟩ := addClosed_spec b' id e
  refine ⟨fun k => ?_, fun r => ?_⟩
  · rw [hsub, hsub', h.length]
    split
    · rfl
    · exact h.subs k
  · rw [hlist, hlist', h.subscribers]

/-- **A subscription that is closed at once** is as good as one that was never in the registry. -/
theorem Alike.subscribe_close (h : b.Alike b') (hc : b.Consistent) :
    ((b.subscribe id [e]).2.close b.subscriptions.length).Alike (b'.addClosed id [e]).2 := by
  obtain ⟨hsub, hlist⟩ := subscribe_spec b id [e]
  obtain ⟨hsub', hlist'⟩ := addClosed_spec b' id e
  refine ⟨fun k => ?_, fun r => ?_⟩
  · rw [sub?_close, hsub, hsub', h.length]
    split
    · rfl
    · exact h.subs k
  · have hnew : b.subscriptions.length ∉ b.subscribers r := fun hm => Nat.lt_irrefl _ (hc.lt_length hm)
    rw [subscribers_close hc.subscribe, hlist, hlist', h.subscribers]
    split
    · rw [List.erase_append_right _ hnew, List.erase_cons_head, List.append_nil]
    · rw [List.erase_of_not_mem hnew]

end Broadcaster

end StepRunner
