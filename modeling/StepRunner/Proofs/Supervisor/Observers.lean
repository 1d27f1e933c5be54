import StepRunner.Proofs.Supervisor.Memory

/-!
# What a move does to the observers of a run

* `broadcaster_of_changed`: where a run changes, its observers are told the news, unless the save
  broke;
* `mem_subscribers_of_kept`: where it stays as it is, its streams are opened and closed by its
  subscribers alone;
* `streams_frame`: a stream is the same where its run does not change, and a closed one always is, but
  for what its subscriber reads;
* `streams_occur`: a stream takes the news of a change, and closes with the run.
-/

namespace StepRunner.Supervisor

variable {s : Supervisor} {id : String} {st : RunState} {t : Change} {m : Move} {n : Nat}
  {o : Occasion} {closed : Bool} {events : List Event}

/-! ## 1. The run changes -/

/-- **The observers of a run that changes** are told the news, unless the save broke. -/
theorem broadcaster_of_changed (hc : s.change? id o = some t) :
    (s.perform (.occur id o)).broadcaster =
      if (s.keep t).1 = none then s.broadcaster.publishAll id t.news else s.broadcaster := by
  rw [perform_of_some hc, broadcaster_take, id_of_change? hc]
  rfl

/-- The open streams of a run that changes: news of its end leaves none. -/
theorem mem_subscribers_of_changed (hs : s.Sound) (hc : s.change? id o = some t) :
    n ∈ (s.perform (.occur id o)).broadcaster.subscribers id ↔
      n ∈ s.broadcaster.subscribers id ∧
        ((s.keep t).1 = none → ∀ x ∈ t.news, x.isTerminal = false) := by
  rw [broadcaster_of_changed hc]
  split
  · next hk =>
      rw [Broadcaster.subscribers_publishAll hs.broadcaster]
      split
      · next hx =>
          obtain ⟨-, x, hx, ht⟩ := hx
          refine ⟨fun h => absurd h List.not_mem_nil, fun ⟨_, h⟩ => ?_⟩
          rw [h hk x hx] at ht
          cases ht
      · next hx =>
          refine ⟨fun h => ⟨h, fun _ x hm => ?_⟩, And.left⟩
          exact Bool.eq_false_iff.mpr fun ht => hx ⟨rfl, x, hm, ht⟩
  · next hk => exact ⟨fun h => ⟨h, fun hk' => absurd hk' hk⟩, And.left⟩

/-! ## 2. The run stays as it is -/

theorem broadcaster_register (s : Supervisor) (run : Run) :
    (s.perform (.register run)).broadcaster = s.broadcaster := by
  show (s.register run).2.broadcaster = s.broadcaster
  cases ha : s.accepts run with
  | false => rw [register_of_not_accepts ha]
  | true =>
      obtain ⟨archive, journal, e⟩ := register_of_accepts ha
      rw [e]

/-- What happens to another run. -/
theorem broadcaster_of_other {k : String} (o : Occasion)
    (hm : ∀ o', Move.occur k o = .occur id o' → s.change? id o' = none) :
    (s.perform (.occur k o)).broadcaster = s.broadcaster ∨
      k ≠ id ∧ ∃ news, (s.perform (.occur k o)).broadcaster = s.broadcaster.publishAll k news := by
  cases hc : s.change? k o with
  | none =>
      rw [perform_of_none hc]
      exact .inl rfl
  | some t =>
      rw [broadcaster_of_changed hc]
      split
      · refine .inr ⟨?_, t.news, rfl⟩
        rintro rfl
        rw [hm o rfl] at hc
        cases hc
      · exact .inl rfl

/-- Opening a stream on a run in memory; it is closed at once where the run has ended. -/
theorem broadcaster_subscribe (hst : s.state? id = some st) :
    (s.subscribe id).1 = .ok s.broadcaster.subscriptions.length ∧
      (s.subscribe id).2.broadcaster =
        if st.run.isOpen then (s.broadcaster.subscribe id [.progressOf st.run]).2
        else (s.broadcaster.subscribe id [.progressOf st.run]).2.close
          s.broadcaster.subscriptions.length := by
  unfold subscribe
  rw [run?_of_state? hst]
  exact ⟨rfl, rfl⟩

/-- Who observes a run as a stream is opened: who did so, and the new stream where it is on that run and
    the run has not ended. -/
theorem mem_subscribers_subscribe (hs : s.Sound) (hst : s.state? id = some st) (k : String) :
    n ∈ (s.subscribe k).2.broadcaster.subscribers id ↔
      n ∈ s.broadcaster.subscribers id ∨
        k = id ∧ st.run.isOpen = true ∧ n = s.broadcaster.subscriptions.length := by
  have hb := hs.broadcaster
  by_cases hk : k = id
  · subst hk
    have hlist := (Broadcaster.subscribe_spec s.broadcaster k [.progressOf st.run]).2 k
    rw [if_pos rfl] at hlist
    have hnew : s.broadcaster.subscriptions.length ∉ s.broadcaster.subscribers k :=
      fun h => Nat.lt_irrefl _ (hb.lt_length h)
    rw [(broadcaster_subscribe hst).2]
    cases ho : st.run.isOpen with
    | true =>
        rw [if_pos rfl, hlist]
        simp
    | false =>
        rw [if_neg (by simp), Broadcaster.subscribers_close hb.subscribe, hlist,
          List.erase_append_right _ hnew]
        simp
  · have hsame : (s.subscribe k).2.broadcaster.subscribers id = s.broadcaster.subscribers id := by
      obtain ⟨b, e, h⟩ := subscribe_frame s k
      rw [e]
      show b.subscribers id = _
      rcases h with rfl | ⟨x, rfl | rfl | rfl⟩
      · rfl
      · rw [(Broadcaster.subscribe_spec _ _ _).2, if_neg (Ne.symm hk)]
      · rw [Broadcaster.subscribers_close hb.subscribe, (Broadcaster.subscribe_spec _ _ _).2,
          if_neg (Ne.symm hk), List.erase_of_not_mem fun h => Nat.lt_irrefl _ (hb.lt_length h)]
      · rw [(Broadcaster.addClosed_spec _ _ _).2]
    rw [hsame]
    simp [hk]

/-- **Who observes a run that stays as it is**: who did so and does not leave, and who just came. -/
theorem mem_subscribers_of_kept (hs : s.Sound) (hst : s.state? id = some st)
    (hm : ∀ o, m = .occur id o → s.change? id o = none) :
    n ∈ (s.perform m).broadcaster.subscribers id ↔
      n ∈ s.broadcaster.subscribers id ∧ m ≠ .unsubscribe n ∨
        m = .subscribe id ∧ st.run.isOpen = true ∧ n = s.broadcaster.subscriptions.length := by
  have hb := hs.broadcaster
  cases m with
  | register run =>
      rw [broadcaster_register]
      simp
  | occur k o =>
      rcases broadcaster_of_other o hm with e | ⟨hk, news, e⟩
      · rw [e]
        simp
      · rw [e, Broadcaster.subscribers_publishAll hb, if_neg fun h => hk h.1.symm]
        simp
  | subscribe k =>
      show n ∈ (s.subscribe k).2.broadcaster.subscribers id ↔ _
      rw [mem_subscribers_subscribe hs hst]
      simp
  | unsubscribe k =>
      show n ∈ (s.broadcaster.close k).subscribers id ↔ _
      rw [Broadcaster.subscribers_close hb, (hb.nodup id).mem_erase_iff]
      simp only [ne_eq, Move.unsubscribe.injEq, reduceCtorEq, false_and, or_false]
      rw [and_comm, eq_comm (a := k)]
  | read k =>
      show n ∈ (s.broadcaster.get k).2.subscribers id ↔ _
      rw [Broadcaster.subscribers_get]
      simp
  | clock now =>
      show n ∈ s.broadcaster.subscribers id ↔ _
      simp

/-! ## 3. One stream -/

theorem reads_read (s : Supervisor) (n : Nat) : s.reads n (.read n) = (s.broadcaster.get n).1.toList :=
  if_pos rfl

theorem toList_head?_append_tail {α : Type*} (l : List α) : l.head?.toList ++ l.tail = l := by
  cases l <;> rfl

/-- **A stream that nobody adds to** loses what is read, and is closed by nobody but its subscriber. -/
theorem streams_frame (hs : s.Sound) (h : s.broadcaster.Streams n id closed events)
    (hc : closed = true ∨ m ≠ .unsubscribe n ∧ ∀ o, m = .occur id o → s.change? id o = none) :
    ∃ rest, (s.perform m).broadcaster.Streams n id closed rest ∧ s.reads n m ++ rest = events := by
  cases m with
  | register run =>
      rw [broadcaster_register]
      exact ⟨events, h, rfl⟩
  | occur k o =>
      refine ⟨events, ?_, rfl⟩
      cases hk : s.change? k o with
      | none => rwa [perform_of_none hk]
      | some t =>
          rw [broadcaster_of_changed hk]
          split
          · refine h.publishAll_of_ne hs.broadcaster ?_
            refine hc.symm.imp_left fun hm => ?_
            rintro rfl
            rw [hm.2 o rfl] at hk
            cases hk
          · exact h
  | subscribe k =>
      obtain ⟨b, e, hb⟩ := subscribe_frame s k
      have e : s.perform (.subscribe k) = { s with broadcaster := b } := e
      rw [e]
      refine ⟨events, ?_, rfl⟩
      show b.Streams n id closed events
      rcases hb with rfl | ⟨x, rfl | rfl | rfl⟩
      · exact h
      · exact h.subscribe
      · exact h.subscribe.close_of_ne (Nat.ne_of_lt h.lt_length)
      · exact h.addClosed
  | unsubscribe k =>
      refine ⟨events, ?_, rfl⟩
      show (s.broadcaster.close k).Streams n id closed events
      by_cases hk : n = k
      · subst hk
        obtain rfl := hc.resolve_right fun hm => hm.1 rfl
        exact h.close
      · exact h.close_of_ne hk
  | read k =>
      by_cases hk : n = k
      · subst hk
        obtain ⟨hfst, hsnd⟩ := h.get
        refine ⟨events.tail, hsnd, ?_⟩
        rw [reads_read, hfst, toList_head?_append_tail]
      · exact ⟨events, h.get_of_ne hk, by rw [reads, if_neg (Ne.symm hk), List.nil_append]⟩
  | clock now => exact ⟨events, h, rfl⟩

/-- **A stream of a run that changes** takes the news, and closes with the run. -/
theorem streams_occur (hs : s.Sound) (hst : s.state? id = some st) (hc : s.change? id o = some t)
    (hk : (s.keep t).1 = none) (h : s.broadcaster.Streams n id (!st.run.isOpen) events) :
    (s.perform (.occur id o)).broadcaster.Streams n id (!t.next.run.isOpen)
      (events ++ t.news.map (⟨id, ·⟩)) := by
  obtain ⟨st₀, hst₀, hg⟩ := change?_eq_some hc
  rw [hst] at hst₀
  cases hst₀
  have hturn := RunState.turns_of_goes hg (hs.fits id st hst)
  rw [broadcaster_of_changed hc, if_pos hk]
  cases ho : st.run.isOpen with
  | false =>
      obtain ⟨hrun, hnews⟩ := hturn.of_terminal (Run.not_isOpen_iff.mp ho)
      rw [hrun, hnews, ho, List.map_nil, List.append_nil]
      rw [ho] at h
      exact h
  | true =>
      rw [ho] at h
      cases ho' : t.next.run.isOpen with
      | true => exact h.publishAll hs.broadcaster (hturn.isTerminal_news ho')
      | false =>
          rw [hturn.of_ends ho (Run.not_isOpen_iff.mp ho')]
          have hend := h.publish (e := ⟨id, t.next.run.ending⟩) hs.broadcaster
          rwa [show Event.isTerminal ⟨id, t.next.run.ending⟩ = true from
            Run.isTerminal_ending _] at hend

end StepRunner.Supervisor
