import StepRunner.Proofs.Broadcast.Delivery

/-!
# The registry of a broadcaster

A terminal event and the end of a run take the run out of the registry first and then close its
subscriptions, each of which asks to be taken out in turn; and a run that is gone can be subscribed to
anew. `registry_after` says what holds whatever the order: the registry lists a subscription exactly as
long as it is open, once and under its run, no run without one is in it, and the end mark stands at the
end of the queues of the closed ones and nowhere else.

It is put together from what histories keep: `Consistent` as for any broadcaster, `NoneEmpty` that each
run of the registry has a subscription, and `AllTold` that the registry is told of every closing, since
a history makes subscriptions by subscribing alone.
-/

namespace StepRunner.Broadcaster

variable {b b' : Broadcaster} {n k : Nat} {id r : String} {registry : List (String × List Nat)}

/-! ## 1. What a history keeps -/

/-- Each run of the registry has a subscription. -/
def NoneEmpty (registry : List (String × List Nat)) : Prop := ∀ entry ∈ registry, entry.2 ≠ []

theorem NoneEmpty.enter (h : NoneEmpty registry) : NoneEmpty (enter id n registry) := by
  induction registry with
  | nil => simp [NoneEmpty, Broadcaster.enter]
  | cons entry rest ih =>
      unfold NoneEmpty at h ih ⊢
      rw [List.forall_mem_cons] at h
      unfold Broadcaster.enter
      split
      · exact List.forall_mem_cons.mpr ⟨by simp, h.2⟩
      · exact List.forall_mem_cons.mpr ⟨h.1, ih h.2⟩

theorem NoneEmpty.removeRun (h : NoneEmpty registry) : NoneEmpty (removeRun id registry) :=
  fun entry hentry => h entry (List.mem_of_mem_filter hentry)

theorem NoneEmpty.leave (h : NoneEmpty registry) : NoneEmpty (leave id n registry) := by
  intro entry hentry
  obtain ⟨before, hbefore, hleft⟩ := List.mem_filterMap.mp hentry
  split at hleft
  · -- a list that becomes empty is left out
    next r ns =>
      dsimp only at hleft
      split at hleft
      · split at hleft
        · cases hleft
        · next hne =>
            cases hleft
            simpa using hne
      · cases hleft
        exact h _ hbefore

theorem NoneEmpty.perform (hb : b.Consistent) (h : NoneEmpty b.registry) (a : Act) :
    NoneEmpty (b.perform a).registry := by
  cases a with
  | subscribe id initial => exact h.enter
  | publish id e =>
      show NoneEmpty (b.publish id e).registry
      rw [(publish_spec hb).2]
      split
      · exact h.removeRun
      · exact h
  | put n e => exact h
  | get n =>
      show NoneEmpty (b.get n).2.registry
      unfold Broadcaster.get
      split <;> exact h
  | iterate n =>
      show NoneEmpty (b.drain n).2.registry
      unfold Broadcaster.drain
      split <;> exact h
  | close n | exit n =>
      show NoneEmpty (b.close n).registry
      rw [registry_close]
      split
      · exact h
      · split
        · exact h.leave
        · exact h
  | closeRun id =>
      show NoneEmpty (b.closeRun id).registry
      rw [(closeRun_spec hb).2]
      exact h.removeRun

/-- The registry is told when any of the subscriptions closes. -/
def AllTold (b : Broadcaster) : Prop := ∀ n s, b.sub? n = some s → s.attached = true

/-- A change of some of the subscriptions that keeps them attached. -/
theorem AllTold.of_changed {p : Nat → Prop} [DecidablePred p] {f : Subscription → Subscription}
    (h : b.AllTold) (hsub : ∀ k, b'.sub? k = if p k then (b.sub? k).map f else b.sub? k)
    (hf : ∀ s, (f s).attached = s.attached) : b'.AllTold := by
  intro n s hs
  rw [hsub] at hs
  split at hs
  · obtain ⟨s₀, h₀, rfl⟩ := Option.map_eq_some_iff.mp hs
    rw [hf]
    exact h n s₀ h₀
  · exact h n s hs

theorem attached_receive (s : Subscription) (e : Event) : (s.receive e).attached = s.attached := by
  unfold Subscription.receive
  split <;> simp

theorem AllTold.perform (hb : b.Consistent) (h : b.AllTold) (a : Act) : (b.perform a).AllTold := by
  cases a with
  | subscribe id initial =>
      intro n s hs
      have hs : (b.subscribe id initial).2.sub? n = some s := hs
      rw [(subscribe_spec b id initial).1] at hs
      split at hs
      · cases hs
        rfl
      · exact h n s hs
  | publish id e => exact h.of_changed (fun _ => sub?_publish hb) fun s => attached_receive s e
  | put n e => exact h.of_changed (fun _ => sub?_put) (by simp)
  | get n => exact h.of_changed (fun _ => sub?_get) (by simp)
  | iterate n => exact h.of_changed (fun _ => sub?_drain) (by simp)
  | close n | exit n => exact h.of_changed (fun _ => sub?_close) (by simp)
  | closeRun id => exact h.of_changed (closeRun_spec hb).1 (by simp)

/-- **What holds after every history**, by induction on its acts. -/
theorem kept_after (hb : b.Consistent) (hne : NoneEmpty b.registry) (ht : b.AllTold) (h : List Act) :
    (b.after h).Consistent ∧ NoneEmpty (b.after h).registry ∧ (b.after h).AllTold := by
  induction h generalizing b with
  | nil => exact ⟨hb, hne, ht⟩
  | cons a h ih => exact ih (hb.perform a) (hne.perform hb a) (ht.perform hb a)

/-! ## 2. What the registry lists -/

/-- What a registry lists: each subscription with the run that it stands under. -/
def listings (registry : List (String × List Nat)) : List (String × Nat) :=
  registry.flatMap fun entry => entry.2.map (entry.1, ·)

theorem listings_cons (entry : String × List Nat) (rest : List (String × List Nat)) :
    listings (entry :: rest) = entry.2.map (entry.1, ·) ++ listings rest := List.flatMap_cons

theorem key_of_mem_listings (h : (r, n) ∈ listings registry) : r ∈ registry.map (·.1) := by
  obtain ⟨entry, hentry, hn⟩ := List.mem_flatMap.mp h
  obtain ⟨m, -, hm⟩ := List.mem_map.mp hn
  cases hm
  exact List.mem_map_of_mem hentry

/-- A registry lists what it has for each run. -/
theorem mem_listings (subscriptions : List Subscription) (hkeys : (registry.map (·.1)).Nodup) :
    (r, n) ∈ listings registry ↔ n ∈ subscribers ⟨subscriptions, registry⟩ r := by
  induction registry with
  | nil => simp [listings, subscribers]
  | cons entry rest ih =>
      rw [List.map_cons, List.nodup_cons] at hkeys
      rw [listings_cons, List.mem_append, subscribers_cons]
      split
      · next hr =>
          subst hr
          have hrest : (entry.1, n) ∉ listings rest := fun h => hkeys.1 (key_of_mem_listings h)
          simp [hrest]
      · next hr => simp [Ne.symm hr, ih hkeys.2]

/-- **Nothing is listed twice** where no run and nothing of a run is. -/
theorem nodup_listings (subscriptions : List Subscription) (hkeys : (registry.map (·.1)).Nodup)
    (hlists : ∀ r, (subscribers ⟨subscriptions, registry⟩ r).Nodup) : (listings registry).Nodup := by
  induction registry with
  | nil => exact .nil
  | cons entry rest ih =>
      rw [List.map_cons, List.nodup_cons] at hkeys
      have hfirst : entry.2.Nodup := by
        have h := hlists entry.1
        rwa [subscribers_cons, if_pos rfl] at h
      have hrest (r) : (subscribers ⟨subscriptions, rest⟩ r).Nodup := by
        have h := hlists r
        rw [subscribers_cons] at h
        split at h
        · next hr =>
            have hnone : subscribers ⟨subscriptions, rest⟩ r = [] := subscribers_of_not_mem (hr ▸ hkeys.1)
            rw [hnone]
            exact .nil
        · exact h
      rw [listings_cons, List.nodup_append]
      refine ⟨hfirst.map fun m m' h => (Prod.mk.inj h).2, ih hkeys.2 hrest, ?_⟩
      rintro ⟨r, m⟩ hm other hother rfl
      obtain ⟨m', -, he⟩ := List.mem_map.mp hm
      cases he
      exact hkeys.1 (key_of_mem_listings hother)

/-- **A subscription is listed exactly while it is open**, once and under its run. -/
theorem listings_of_sub? {s : Subscription} (h : b.Consistent) (ht : b.AllTold) (hs : b.sub? n = some s) :
    (listings b.registry).filter (·.2 = n) = if s.closed then [] else [(s.runId, n)] := by
  have hmem (r) : (r, n) ∈ listings b.registry ↔ s.runId = r ∧ s.closed = false := by
    rw [mem_listings b.subscriptions h.keys, h.mem, hs]
    simp [ht n s hs]
  have hnodup := nodup_listings b.subscriptions h.keys h.nodup
  cases hc : s.closed with
  | true =>
      rw [if_pos rfl, List.filter_eq_nil_iff]
      intro ⟨r, m⟩ hm hmn
      obtain rfl : m = n := by simpa using hmn
      rw [hmem, hc] at hm
      cases hm.2
  | false =>
      rw [if_neg (by simp), ← List.perm_singleton]
      refine (List.perm_ext_iff_of_nodup (hnodup.filter _) (List.nodup_singleton _)).mpr ?_
      intro ⟨r, m⟩
      rw [List.mem_filter, List.mem_singleton, Prod.mk.injEq]
      constructor
      · intro ⟨hm, hmn⟩
        obtain rfl : m = n := by simpa using hmn
        exact ⟨((hmem r).mp hm).1.symm, rfl⟩
      · rintro ⟨rfl, rfl⟩
        exact ⟨(hmem _).mpr ⟨rfl, hc⟩, by simp⟩

/-! ## 3. How many subscriptions are open -/

/-- Counting the places of a list that hold something of a kind counts what is of the kind. -/
theorem countP_range_length {α : Type} (xs : List α) (p : α → Bool) :
    (List.range xs.length).countP (fun n => xs[n]?.any p) = xs.countP p := by
  have hplaces : (List.range xs.length).map (xs[·]?) = xs.map some :=
    List.ext_getElem (by simp) (by simp)
  calc (List.range xs.length).countP (fun n => xs[n]?.any p)
      = ((List.range xs.length).map (xs[·]?)).countP (Option.any p) := by
        rw [List.countP_map]
        rfl
    _ = (xs.map some).countP (Option.any p) := by rw [hplaces]
    _ = xs.countP p := List.countP_map

/-- **The count of a run** is that of its open subscriptions. -/
theorem count_eq_countP (h : b.Consistent) (ht : b.AllTold) (id : String) :
    b.count id = b.subscriptions.countP fun s => s.runId = id && !s.closed := by
  have hperm : (b.subscribers id).Perm ((List.range b.subscriptions.length).filter fun n =>
      (b.sub? n).any fun s => s.runId = id && !s.closed) := by
    refine (List.perm_ext_iff_of_nodup (h.nodup id) (List.nodup_range.filter _)).mpr fun n => ?_
    rw [List.mem_filter, List.mem_range]
    constructor
    · intro hn
      obtain ⟨s, hs, hr, -, hc⟩ := (h.mem id n).mp hn
      exact ⟨h.lt_length hn, by simp [hs, hr, hc]⟩
    · intro ⟨_, hopen⟩
      cases hs : b.sub? n with
      | none =>
          rw [hs] at hopen
          cases hopen
      | some s =>
          simp only [hs, Option.any_some, Bool.and_eq_true, decide_eq_true_eq, Bool.not_eq_true'] at hopen
          exact (h.mem id n).mpr ⟨s, hs, hopen.1, ht n s hs, hopen.2⟩
  rw [count, hperm.length_eq, ← List.countP_eq_length_filter]
  exact countP_range_length _ _

/-! ## 4. Every state -/

/-- **The registry in every state.** After any history the registry lists a subscription just while it
    is open, once and under its own run; it lists nothing but subscriptions, and no run without one; the
    count of a run is that of its open subscriptions; and the end mark stands in the queue of a
    subscription exactly if that is closed, once and behind all events. -/
theorem registry_after (h : List Act) :
    (∀ n s, (after {} h).sub? n = some s →
      (listings (after {} h).registry).filter (·.2 = n) = (if s.closed then [] else [(s.runId, n)]) ∧
      s.queue = s.waiting.map .event ++ if s.closed then [.endOfStream] else []) ∧
    (∀ entry ∈ (after {} h).registry,
      entry.2 ≠ [] ∧ ∀ n ∈ entry.2, ((after {} h).sub? n).isSome = true) ∧
    ∀ id, (after {} h).count id =
      (after {} h).subscriptions.countP fun s => s.runId = id && !s.closed := by
  obtain ⟨hb, hne, ht⟩ := kept_after consistent_empty (by simp [NoneEmpty]) nofun h
  generalize after {} h = b at hb hne ht
  refine ⟨fun n s hs => ⟨listings_of_sub? hb ht hs, ?_⟩, fun entry hentry => ⟨hne entry hentry, ?_⟩,
    count_eq_countP hb ht⟩
  · obtain ⟨events, hq⟩ := hb.queues n s hs
    rw [hq.waiting]
    exact hq
  · intro n hn
    have hlisted : (entry.1, n) ∈ listings b.registry :=
      List.mem_flatMap.mpr ⟨entry, hentry, List.mem_map_of_mem hn⟩
    obtain ⟨s, hs, -⟩ := (hb.mem _ _).mp ((mem_listings b.subscriptions hb.keys).mp hlisted)
    rw [hs]
    rfl

end StepRunner.Broadcaster
