import StepRunner.Proofs.Supervisor.Faults

/-!
# Slots

A run under way has so many slots, and a case that waits takes a free one. This module follows the cases
of a run from the list into the case runner and out again, over every history.

* `Supervisor.inside`: the cases of a run that entered the case runner in a history and have not ended;
* `Dispatch.Lodges`: how far a dispatch has come, which cases have entered and which are inside go
  together; every change keeps it (`lodges_of_on`), and so does every history (`lodged_after`);
* `Supervisor.Admits`: no more cases are inside than there are slots, they enter in order and once, the
  next ones enter as soon as slots are free, and none enters after the end. Every history has it
  (`admits_after`), where the time limit is within the format: beyond it no case ever enters, though the
  run is running.
-/

namespace StepRunner

/-! ## 1. Into the case runner and out again -/

/-- A run that can be made: no case stands in it twice, and it may run one at least at a time. -/
structure Run.Admissible (run : Run) : Prop where
  distinct : (run.testCases.map (·.id)).Nodup
  concurrency : 1 ≤ run.config.concurrency

namespace RunConfig

theorem one_le_readConcurrency {j : Json} {n : Nat} (h : readConcurrency j = .ok n) : 1 ≤ n := by
  unfold readConcurrency at h
  split at h
  · split at h
    · cases h
    · cases h
      unfold concurrencyLimit
      omega
  · cases h

/-- A configuration that is accepted lets one case at least run at a time. -/
theorem one_le_concurrency {a : ConfigArguments} {config : RunConfig}
    (h : create a = .ok config) : 1 ≤ config.concurrency := by
  simp only [create, bind, Except.bind] at h
  split at h
  · cases h
  · next n hn =>
      split at h
      · cases h
      · split at h
        · cases h
          exact one_le_readConcurrency hn
        · cases h

end RunConfig

namespace Run

/-- **A run that is made** under a configuration that was accepted is admissible. -/
theorem admissible_of_make {run made : Run} {counts : Option RunCounts} {a : ConfigArguments}
    (hc : RunConfig.create a = .ok run.config) (h : make run counts = .ok made) :
    made.Admissible := by
  unfold make at h
  split at h
  · cases h
  · next hd =>
      cases h
      exact ⟨nodup_of_not_hasRepeats (by simpa using hd), RunConfig.one_le_concurrency hc⟩

end Run

/-- The cases that are left of some as an occasion comes: one that ends is not. -/
def Occasion.sparing (o : Occasion) (within : List TestCase) : List TestCase :=
  match o with
  | .handIn caseId _ => within.filter (·.id != caseId)
  | _ => within

namespace Supervisor

/-- The cases of a run that enter the case runner in a move. -/
def entrants (s : Supervisor) (id : String) (m : Move) : List TestCase :=
  match s.state? id, (s.perform m).state? id with
  | some st, some st' => st'.entered.drop st.entered.length
  | _, _ => []

/-- The cases of a run that stay inside the case runner in a move. A run that takes over the id of one
    that has left memory has none there. -/
def stayers (s : Supervisor) (id : String) (within : List TestCase) : Move → List TestCase
  | .register run => if run.id = id ∧ s.accepts run = true then [] else within
  | .occur k o => if k = id then o.sparing within else within
  | _ => within

/-- The cases of a run inside the case runner after a history that found some there. -/
def insideFrom (s : Supervisor) (id : String) (within : List TestCase) : List Move → List TestCase
  | [] => within
  | m :: h => (s.perform m).insideFrom id (s.stayers id within m ++ s.entrants id m) h

/-- The cases of a run inside the case runner after a history. -/
def inside (s : Supervisor) (id : String) (h : List Move) : List TestCase := s.insideFrom id [] h

variable {s : Supervisor} {id : String} {m : Move} {h : List Move} {st st' : RunState}

theorem inside_concat : s.inside id (h ++ [m]) =
    (s.after h).stayers id (s.inside id h) m ++ (s.after h).entrants id m := by
  unfold inside
  generalize ([] : List TestCase) = within
  induction h generalizing s within with
  | nil => rfl
  | cons m' h ih => exact ih _

theorem entrants_of_state? (hst : s.state? id = some st) (hst' : (s.perform m).state? id = some st') :
    s.entrants id m = st'.entered.drop st.entered.length := by
  unfold entrants
  rw [hst, hst']

end Supervisor

/-! ## 2. Where the cases are -/

/-- The dispatch has not opened a pool yet. -/
def Dispatch.isBefore : Dispatch → Bool
  | .idle | .called | .begun => true
  | _ => false

/-- The dispatch has no pool any more. -/
def Dispatch.isOver : Dispatch → Bool
  | .broken _ | .leaving | .ended => true
  | _ => false

/-- How far a dispatch has come, the cases that have entered and those that are inside: none has before
    the pool opens; then those inside are those in flight, and the others wait; and afterwards there are
    at least no more of them. Where there is no moment for the time limit the pool never opens. -/
inductive Dispatch.Lodges (slots : Nat) (cases : List TestCase) (limit : TimeLimit) :
    Dispatch → List TestCase → List TestCase → Prop where
  | before (d : Dispatch) (hd : d.isBefore = true) : Lodges slots cases limit d [] []
  | active (p : Pool) (entered : List TestCase) (hl : ¬ limit.IsBeyond) (hs : p.slots = slots)
      (hw : entered ++ p.waiting = cases) (hn : p.inFlight.length ≤ slots) :
      Lodges slots cases limit (.active p) entered p.inFlight
  | late (d : Dispatch) (entered within : List TestCase) (hd : d.isOver = true)
      (hl : limit.IsBeyond → entered = []) (he : entered <+: cases) (hn : within.length ≤ slots) :
      Lodges slots cases limit d entered within

/-- The cases of a run are where they belong, and these are inside. -/
def RunState.Lodged (st : RunState) (settings : Settings) (within : List TestCase) : Prop :=
  st.dispatch.Lodges (settings.slots st.run.config).toNat st.run.testCases st.run.config.timeLimit
    st.entered within

namespace Dispatch

variable {slots : Nat} {cases : List TestCase} {limit : TimeLimit} {d d' : Dispatch}
  {entered within : List TestCase}

theorem Lodges.length_le (h : d.Lodges slots cases limit entered within) : within.length ≤ slots := by
  cases h with
  | before => exact Nat.zero_le _
  | active _ _ _ _ _ hn => exact hn
  | late _ _ _ _ _ _ hn => exact hn

theorem Lodges.isPrefix (h : d.Lodges slots cases limit entered within) : entered <+: cases := by
  cases h with
  | before => exact List.nil_prefix
  | active p _ _ _ hw _ => exact ⟨p.waiting, hw⟩
  | late _ _ _ _ _ he _ => exact he

theorem Lodges.eq_nil (h : d.Lodges slots cases limit entered within) (hl : limit.IsBeyond) :
    entered = [] := by
  cases h with
  | before => rfl
  | active _ _ hl' => exact absurd hl hl'
  | late _ _ _ _ hl' => exact hl' hl

theorem Lodges.of_isBefore (h : d.Lodges slots cases limit entered within)
    (hd : d.isBefore = true) : entered = [] ∧ within = [] := by
  cases h with
  | before => exact ⟨rfl, rfl⟩
  | active => cases hd
  | late _ _ _ hd' => cases d <;> simp [isBefore, isOver] at hd hd'

theorem Lodges.of_active {p : Pool}
    (h : (Dispatch.active p).Lodges slots cases limit entered within) :
    ¬ limit.IsBeyond ∧ p.slots = slots ∧ entered ++ p.waiting = cases ∧ within = p.inFlight ∧
      p.inFlight.length ≤ slots := by
  cases h with
  | before _ hd => cases hd
  | active _ _ hl hs hw hn => exact ⟨hl, hs, hw, rfl, hn⟩
  | late _ _ _ hd => cases hd

/-- A pool that opens has all cases waiting. -/
theorem Lodges.opened (h : d.Lodges slots cases limit entered within) (hd : d.isBefore = true)
    (hl : ¬ limit.IsBeyond) (deadline : Instant) :
    (Dispatch.active { slots, waiting := cases, deadline }).Lodges slots cases limit
      entered within := by
  obtain ⟨rfl, rfl⟩ := h.of_isBefore hd
  exact .active _ [] hl rfl rfl (Nat.zero_le _)

/-- The cases that take the free slots come after those that entered before them. -/
theorem Lodges.filled {p : Pool}
    (h : (Dispatch.active p).Lodges slots cases limit entered within) :
    (Dispatch.active p.filled).Lodges slots cases limit
      (entered ++ p.entering) (within ++ p.entering) := by
  obtain ⟨hl, hs, hw, rfl, hn⟩ := h.of_active
  have hcases : entered ++ p.entering ++ p.waiting.drop p.free = cases := by
    rw [List.append_assoc]
    show entered ++ (p.waiting.take p.free ++ p.waiting.drop p.free) = cases
    rw [List.take_append_drop, hw]
  have hfits : (p.inFlight ++ p.entering).length ≤ slots := by
    have hlength : p.entering.length = min p.free p.waiting.length := List.length_take
    rw [List.length_append, hlength]
    unfold Pool.free
    omega
  exact .active p.filled _ hl hs hcases hfits

/-- A case that ends is not inside any more. -/
theorem Lodges.withEnd {p : Pool}
    (h : (Dispatch.active p).Lodges slots cases limit entered within) (c : TestCase) (x : HandedIn) :
    (Dispatch.active (p.withEnd c x)).Lodges slots cases limit entered
      (within.filter (·.id != c.id)) := by
  obtain ⟨hl, hs, hw, rfl, hn⟩ := h.of_active
  exact .active (p.withEnd c x) _ hl hs hw ((List.length_filter_le ..).trans hn)

/-- A case that has ended was not inside before it is looked at. -/
theorem Lodges.without {p : Pool}
    (h : (Dispatch.active p).Lodges slots cases limit entered within) (caseId : String) :
    (Dispatch.active (p.without caseId)).Lodges slots cases limit entered within := by
  obtain ⟨hl, hs, hw, rfl, hn⟩ := h.of_active
  exact .active (p.without caseId) _ hl hs hw hn

/-- A dispatch that is over keeps what has entered. -/
theorem Lodges.ends (h : d.Lodges slots cases limit entered within) (hd : d'.isOver = true) :
    d'.Lodges slots cases limit entered within :=
  .late d' entered within hd h.eq_nil h.isPrefix h.length_le

/-- Before the pool opens it makes no difference how far the dispatch has come. -/
theorem Lodges.goesOn (h : d.Lodges slots cases limit entered within) (hd : d.isBefore = true)
    (hd' : d'.isBefore = true) : d'.Lodges slots cases limit entered within := by
  obtain ⟨rfl, rfl⟩ := h.of_isBefore hd
  exact .before d' hd'

end Dispatch

namespace RunState

variable {st : RunState} {settings : Settings} {now : Instant} {o : Occasion} {t : Change}
  {slots : Nat} {within : List TestCase}

theorem testCases_of_goes (h : st.Goes now o t) : t.next.run.testCases = st.run.testCases := by
  cases h <;> rfl

theorem config_of_goes (h : st.Goes now o t) : t.next.run.config = st.run.config := by
  cases h <;> rfl

/-- The pool of a run opens with the slots that settings and configuration allow. -/
theorem opens_of_some {deadline : Instant} (hw : 1 ≤ settings.slots st.run.config)
    (hl : st.run.config.timeLimit.deadline? now = some deadline) :
    (st.opens settings now).next = { st with
      dispatch := .active
        { slots := (settings.slots st.run.config).toNat, waiting := st.run.testCases, deadline } } := by
  unfold opens
  split
  · next h =>
      rw [hl] at h
      cases h
  · next moment h =>
      obtain rfl : deadline = moment := Option.some.inj (hl.symm.trans h)
      have hpos : ¬ settings.slots st.run.config ≤ 0 := by omega
      simp only [if_neg hpos]

theorem on_openPool (hd : st.dispatch = .begun) :
    st.on settings now .openPool = some (st.opens settings now) := by
  rw [on.eq_def, hd]

/-- Where there are slots and a moment for the time limit, it is that pool that opens. -/
theorem eq_active_of_on {deadline : Instant} {d : Dispatch} {lines : List JournalLine}
    (hd : st.dispatch = .begun) (hw : 1 ≤ settings.slots st.run.config)
    (hl : st.run.config.timeLimit.deadline? now = some deadline)
    (hon : st.on settings now .openPool = some { next := { st with dispatch := d }, lines }) :
    d = .active
      { slots := (settings.slots st.run.config).toNat, waiting := st.run.testCases, deadline } := by
  rw [on_openPool hd] at hon
  have hopens := opens_of_some hw hl
  rw [Option.some.inj hon] at hopens
  exact congrArg dispatch hopens

/-- **Every change keeps the cases where they belong**, also where its save breaks: those that were
    inside and have not ended stay there, and those that enter come after them. -/
theorem lodges_of_on (hon : st.on settings now o = some t)
    (hslots : 1 ≤ settings.slots st.run.config) (h : st.Lodged settings within) (d : Dispatch)
    (hd : d = t.next.dispatch ∨ ∃ fault, d = t.ifBroken fault) :
    d.Lodges (settings.slots st.run.config).toNat st.run.testCases st.run.config.timeLimit
      t.next.entered (o.sparing within ++ t.next.entered.drop st.entered.length) := by
  unfold Lodged at h
  have hone {d' : Dispatch} (hn : t.next.dispatch = d') (hb : ∀ fault, t.ifBroken fault = d') :
      d = d' := by
    rcases hd with rfl | ⟨fault, rfl⟩
    · exact hn
    · exact hb fault
  -- but for `fill` nothing enters, and but for the end of a case nothing leaves
  have hstays (he : t.next.entered = st.entered) (ho : o.sparing within = within)
      (hd : d.Lodges (settings.slots st.run.config).toNat st.run.testCases
        st.run.config.timeLimit st.entered within) :
      d.Lodges (settings.slots st.run.config).toNat st.run.testCases st.run.config.timeLimit
        t.next.entered (o.sparing within ++ t.next.entered.drop st.entered.length) := by
    rw [he, ho, List.drop_length, List.append_nil]
    exact hd
  cases goes_of_on hon with
  | launch hd' =>
      obtain rfl := hone rfl fun _ => rfl
      exact hstays rfl rfl (h.goesOn (by rw [hd']; rfl) rfl)
  | begin hd' hs =>
      refine hstays rfl rfl ?_
      rcases hd with rfl | ⟨fault, rfl⟩
      · exact h.goesOn (by rw [hd']; rfl) rfl
      · exact h.ends rfl
  | openPool slots deadline lines hd' hl =>
      obtain rfl := hone rfl fun _ => rfl
      refine hstays rfl rfl ?_
      have hbeyond : ¬ st.run.config.timeLimit.IsBeyond := fun hb => by
        rw [TimeLimit.deadline?_eq_none_iff.mpr hb] at hl
        cases hl
      rw [eq_active_of_on hd' hslots hl hon]
      exact h.opened (by rw [hd']; rfl) hbeyond deadline
  | fill p hd' ho =>
      obtain rfl := hone rfl fun _ => rfl
      rw [hd'] at h
      show (Dispatch.active p.filled).Lodges _ _ _ (st.entered ++ p.entering)
        (within ++ (st.entered ++ p.entering).drop st.entered.length)
      rw [List.drop_left]
      exact h.filled
  | handIn p c caseId outcome hd' hc =>
      obtain rfl := hone rfl fun _ => rfl
      rw [hd'] at h
      obtain rfl : c.id = caseId := by simpa using List.find?_some hc
      show (Dispatch.active (p.withEnd c (outcome.handedIn now))).Lodges _ _ _ st.entered
        (within.filter (·.id != c.id) ++ st.entered.drop st.entered.length)
      rw [List.drop_length, List.append_nil]
      exact h.withEnd c (outcome.handedIn now)
  | record p c caseId r hd' hc ha =>
      refine hstays rfl rfl ?_
      rcases hd with rfl | ⟨fault, rfl⟩
      · rw [hd'] at h
        exact h.without caseId
      · exact h.ends rfl
  | drop p c caseId x lines hd' hc ha hn =>
      obtain rfl := hone rfl fun _ => rfl
      rw [hd'] at h
      exact hstays rfl rfl (h.without caseId)
  | beginLate | openNone | openNever | complete | stop | giveUp | giveUpLate | depart =>
      obtain rfl := hone rfl fun _ => rfl
      exact hstays rfl rfl (h.ends rfl)
  | noSession p c caseId message hd' hc ho =>
      refine hstays rfl rfl ?_
      rcases hd with rfl | ⟨fault, rfl⟩
      · exact h.ends rfl
      · exact h.ends rfl
  | expire | cancel =>
      obtain rfl := hone rfl fun _ => rfl
      exact hstays rfl rfl h

/-- Where nothing changes as a case ends, it was not in flight. -/
theorem lodged_of_on_eq_none (hon : st.on settings now o = none) (h : st.Lodged settings within) :
    st.Lodged settings (o.sparing within) := by
  unfold Lodged at h ⊢
  cases o with
  | handIn caseId outcome =>
      show st.dispatch.Lodges _ _ _ st.entered (within.filter (·.id != caseId))
      generalize hd : st.dispatch = d at h
      generalize st.entered = entered at h ⊢
      cases h with
      | before _ hb => exact .before d hb
      | active p _ hl hs hw hn =>
          rw [on.eq_def, hd] at hon
          have hnone := Option.map_eq_none_iff.mp hon
          rw [List.find?_eq_none] at hnone
          have e : p.inFlight.filter (·.id != caseId) = p.inFlight := by
            rw [List.filter_eq_self]
            intro c hc
            simpa using hnone c hc
          rw [e]
          exact .active p entered hl hs hw hn
      | late _ _ _ ho hl he hn =>
          exact .late d entered _ ho hl he ((List.length_filter_le ..).trans hn)
  | launch | begin | openPool | fill | collect | complete | giveUp | depart | expire | cancel =>
      exact h

end RunState

/-! ## 3. Over a history -/

namespace Supervisor

variable {s : Supervisor} {id : String} {m : Move} {h : List Move} {st st' : RunState} {t : Change}
  {run : Run} {within : List TestCase}

theorem admissible_of_held (settings : Settings) (archive : Archive) (now : Instant)
    (hreg : ∀ run ∈ Move.registered h, run.Admissible)
    (hr : ((new settings archive now).after h).run? id = some run) : run.Admissible := by
  refine held_induction settings archive now ?_ (fun run hm _ => hreg run hm) hr
  intro run now run' news ht ha
  exact ⟨ht.testCases_eq ▸ ha.distinct, ht.config_eq ▸ ha.concurrency⟩

theorem one_le_slots {settings : Settings} (hmax : 1 ≤ settings.maxConcurrency)
    (ha : run.Admissible) : 1 ≤ settings.slots run.config := by
  have := ha.concurrency
  unfold Settings.slots
  omega

@[simp] theorem entered_outcome : (s.outcome t).entered = t.next.entered := by
  unfold outcome
  split
  · rfl
  · split <;> rfl

/-- **One move** keeps the cases of a run where they belong. -/
theorem lodged_of_became (hst' : (s.perform m).state? id = some st') (hb : s.Became m id st')
    (hslots : 1 ≤ s.settings.slots st'.run.config)
    (h : ∀ st, s.state? id = some st → st.Lodged s.settings within) :
    st'.Lodged s.settings (s.stayers id within m ++ s.entrants id m) := by
  cases hb with
  | kept _ hk hm =>
      have hlodges := h st' hk
      rw [entrants_of_state? hk hst', List.drop_length, List.append_nil]
      cases m with
      | register run =>
          have hnot : ¬ (run.id = id ∧ s.accepts run = true) := by
            intro h
            obtain ⟨rfl, ha⟩ := h
            rw [(not_knows_of_accepts ha).2] at hk
            cases hk
          show st'.Lodged _ (if _ then _ else _)
          rw [if_neg hnot]
          exact hlodges
      | occur k o =>
          show st'.Lodged _ (if _ then _ else _)
          split
          · next hkid =>
              subst hkid
              have hon := (change?_of_state? hk).symm.trans (hm o rfl)
              exact RunState.lodged_of_on_eq_none hon hlodges
          · exact hlodges
      | subscribe | unsubscribe | read | clock => exact hlodges
  | registered run hm hid hp hn =>
      subst hm
      have ha : s.accepts run = true := by
        cases ha : s.accepts run with
        | true => rfl
        | false =>
            have e : s.perform (.register run) = s := register_of_not_accepts ha
            rw [e, hn] at hst'
            cases hst'
      have hstay : s.stayers id within (.register run) = [] := if_pos ⟨hid, ha⟩
      have henter : s.entrants id (.register run) = [] := by
        unfold entrants
        rw [hn]
      rw [hstay, henter]
      exact .before .idle rfl
  | changed st o t hm hk hc hg =>
      subst hm
      have hon := (change?_of_state? hk).symm.trans hc
      have hstay : s.stayers id within (.occur id o) = o.sparing within := if_pos rfl
      unfold RunState.Lodged
      rw [entrants_of_state? hk hst', hstay, run_outcome, RunState.testCases_of_goes hg,
        RunState.config_of_goes hg, entered_outcome]
      rw [run_outcome, RunState.config_of_goes hg] at hslots
      refine RunState.lodges_of_on hon hslots (h st hk) _ ?_
      rcases dispatch_outcome (s := s) (t := t) with e | ⟨fault, -, e⟩
      · exact .inl e
      · exact .inr ⟨fault, e⟩

/-- **The cases of a run are where they belong after every history.** -/
theorem lodged_after (settings : Settings) (archive : Archive) (now : Instant)
    (hmax : 1 ≤ settings.maxConcurrency) (hreg : ∀ run ∈ Move.registered h, run.Admissible)
    (hst : ((new settings archive now).after h).state? id = some st) :
    st.Lodged settings ((new settings archive now).inside id h) := by
  induction h using List.reverseRecOn generalizing st with
  | nil => cases hst
  | append_singleton h m ih =>
      have hslots := one_le_slots hmax (admissible_of_held settings archive now hreg
        (run?_of_state? hst))
      rw [registered_append] at hreg
      have hset := settings_after (new settings archive now) h
      rw [after_append] at hst
      rw [inside_concat]
      have hmove := @lodged_of_became _ id m st ((new settings archive now).inside id h) hst
        (became_of_state? hst)
      rw [hset] at hmove
      exact hmove hslots fun st hst => ih (fun run hm => hreg run (List.mem_append_left _ hm)) hst

/-! ## 4. The next cases -/

/-- Where saves do not break and there are slots, nothing breaks in the dispatch. -/
theorem not_broken_of_became (hslots : 1 ≤ s.settings.slots st'.run.config) (hb : ¬ s.Breaks m)
    (hinv : ∀ st, s.state? id = some st → ∀ message, st.dispatch ≠ .broken message)
    (hst' : s.Became m id st') (message : String) : st'.dispatch ≠ .broken message := by
  cases hst' with
  | kept _ hk _ => exact hinv _ hk message
  | registered => exact nofun
  | changed st o t hm hk hc hg =>
      subst hm
      rw [dispatch_outcome_of_no_fault (keep_of_not_breaks hc hb)]
      rw [run_outcome, RunState.config_of_goes hg] at hslots
      have hinv := hinv st hk message
      cases hg with
      | openNone text deadline lines hd hl =>
          cases RunState.eq_active_of_on hd hslots hl ((change?_of_state? hk).symm.trans hc)
      | expire | cancel => exact hinv
      | launch | begin | beginLate | openPool | openNever | fill | handIn | record | drop | noSession
      | complete | stop | giveUp | giveUpLate | depart => exact nofun

theorem not_broken_after (settings : Settings) (archive : Archive) (now : Instant)
    (hmax : 1 ≤ settings.maxConcurrency) (hreg : ∀ run ∈ Move.registered h, run.Admissible)
    (hu : (new settings archive now).Unbroken h)
    (hst : ((new settings archive now).after h).state? id = some st) (message : String) :
    st.dispatch ≠ .broken message := by
  induction h using List.reverseRecOn generalizing st message with
  | nil => cases hst
  | append_singleton h m ih =>
      have hslots := one_le_slots hmax (admissible_of_held settings archive now hreg
        (run?_of_state? hst))
      rw [registered_append] at hreg
      obtain ⟨hu, hm, -⟩ := unbroken_append.mp hu
      rw [after_append] at hst
      have hset := settings_after (new settings archive now) h
      refine not_broken_of_became (by rwa [hset]) hm (fun st hk => ?_) (became_of_state? hst) message
      exact ih (fun run hm => hreg run (List.mem_append_left _ hm)) hu hk

/-- A running run has a pool, or it is about to open. -/
theorem begun_or_active (hs : s.Sound) (hst : s.state? id = some st)
    (hrun : st.run.status = .running) (hbroken : ∀ message, st.dispatch ≠ .broken message)
    (hstr : ¬ st.Stranded) : st.dispatch = .begun ∨ ∃ p, st.dispatch = .active p := by
  have hf := hs.fits id st hst
  cases hd : st.dispatch with
  | idle | called => exact absurd hrun (hf.early (by rw [hd]; rfl))
  | begun => exact .inl rfl
  | active p => exact .inr ⟨p, rfl⟩
  | broken message => exact absurd hd (hbroken message)
  | leaving => exact absurd ⟨hrun, .inl hd⟩ hstr
  | ended => exact absurd ⟨hrun, .inr hd⟩ hstr

/-- A change that is not saved and puts no run to rest leads where it says. -/
theorem state?_perform_of_on {o : Occasion} (hst : s.state? id = some st)
    (hon : st.on s.settings s.now o = some t) (hsaved : t.saved = false) (hl : t.leaves = false) :
    (s.perform (.occur id o)).state? id = some t.next := by
  have hc := (change?_of_state? hst).trans hon
  have hk : (s.keep t).1 = none := by
    unfold keep
    rw [if_neg (by simp [hsaved])]
  rw [perform_of_some hc, state?_take_of_change? hc, if_neg (by simp [hl]), if_pos rfl]
  unfold outcome
  rw [hk]
  simp [hl]

/-- The pool of a running run opens, unless it is open. -/
theorem state?_openPool (hst : s.state? id = some st)
    (hslots : 1 ≤ s.settings.slots st.run.config) (hl : ¬ st.run.config.timeLimit.IsBeyond)
    (hd : st.dispatch = .begun ∨ ∃ p, st.dispatch = .active p) (h : st.Lodged s.settings within) :
    ∃ p, (s.perform (.occur id .openPool)).state? id = some { st with dispatch := .active p } ∧
      st.entered ++ p.waiting = st.run.testCases ∧
      p.free = (s.settings.slots st.run.config).toNat - within.length := by
  rcases hd with hd | ⟨p, hd⟩
  · have hbefore : st.dispatch.isBefore = true := by
      rw [hd]
      rfl
    obtain ⟨he, rfl⟩ := h.of_isBefore hbefore
    obtain ⟨deadline, hl⟩ : ∃ deadline, st.run.config.timeLimit.deadline? s.now = some deadline :=
      Option.ne_none_iff_exists'.mp fun hnone => hl (TimeLimit.deadline?_eq_none_iff.mp hnone)
    have hopens := state?_perform_of_on hst (RunState.on_openPool hd) rfl rfl
    refine ⟨{ slots := (s.settings.slots st.run.config).toNat, waiting := st.run.testCases
              deadline }, ?_, ?_, rfl⟩
    · rw [hopens, RunState.opens_of_some hslots hl]
    · rw [he]
      rfl
  · unfold RunState.Lodged at h
    rw [hd] at h
    obtain ⟨-, hs, hw, rfl, -⟩ := h.of_active
    have hnone : s.change? id .openPool = none := by
      rw [change?_of_state? hst, RunState.on.eq_def, hd]
    refine ⟨p, ?_, hw, by rw [Pool.free, hs]⟩
    rw [perform_of_none hnone, hst, ← hd]

/-- The cases that wait take the free slots. -/
theorem state?_fill {p : Pool} (hst : s.state? id = some st) (hd : st.dispatch = .active p)
    (ho : st.run.isOpen = true) : (s.perform (.occur id .fill)).state? id =
      some { st with dispatch := .active p.filled, entered := st.entered ++ p.entering } := by
  have hon : st.on s.settings s.now .fill = some { next := { st with
      dispatch := .active p.filled
      entered := st.entered ++ p.entering } } := by
    rw [RunState.on.eq_def, hd]
    exact if_pos ho
  exact state?_perform_of_on hst hon rfl rfl

/-- **The next cases enter**: as many as there are free slots, in the order of the list. -/
theorem next_enter (hst : s.state? id = some st) (hslots : 1 ≤ s.settings.slots st.run.config)
    (hl : ¬ st.run.config.timeLimit.IsBeyond) (hrun : st.run.status = .running)
    (hd : st.dispatch = .begun ∨ ∃ p, st.dispatch = .active p) (h : st.Lodged s.settings within) :
    ∃ st', (s.after [.occur id .openPool, .occur id .fill]).state? id = some st' ∧
      st'.entered = st.entered ++ (st.run.testCases.drop st.entered.length).take
        ((s.settings.slots st.run.config).toNat - within.length) := by
  obtain ⟨p, hst₁, hw, hfree⟩ := state?_openPool hst hslots hl hd h
  refine ⟨_, state?_fill hst₁ rfl (Run.isOpen_of_running hrun), ?_⟩
  show st.entered ++ p.waiting.take p.free = _
  rw [hfree, ← hw, List.drop_left]

/-! ## 5. After the end -/

/-- Nothing enters but while the run is open. -/
theorem entered_of_terminal (hst : s.state? id = some st) (ht : st.run.status.isTerminal = true)
    (hb : s.Became m id st') : st'.entered = st.entered := by
  cases hb with
  | kept _ hk _ =>
      rw [hst] at hk
      cases hk
      rfl
  | registered run hm hid hp hn =>
      rw [hst] at hn
      cases hn
  | changed st₀ o t hm hk hc hg =>
      rw [hst] at hk
      cases hk
      rw [entered_outcome]
      cases hg with
      | fill p hd ho => exact absurd ht (Run.not_isTerminal ho)
      | launch | begin | beginLate | openPool | openNone | openNever | handIn | record | drop
      | noSession | complete | stop | giveUp | giveUpLate | depart | expire | cancel => rfl

/-- **After a run has ended nothing enters any more.** -/
theorem entered_of_holds (hs : s.Sound) (hst : s.state? id = some st)
    (ht : st.run.status.isTerminal = true) (hh : s.Holds id h)
    (hst' : (s.after h).state? id = some st') : st'.entered = st.entered := by
  induction h generalizing s st with
  | nil =>
      have hst' : s.state? id = some st' := hst'
      rw [hst] at hst'
      cases hst'
      rfl
  | cons m h ih =>
      have hsome : ((s.perform m).run? id).isSome = true := by
        cases h with
        | nil => exact hh.2
        | cons m' h => exact hh.2.1
      obtain ⟨run, hr⟩ := Option.isSome_iff_exists.mp hsome
      obtain ⟨st₁, hst₁, -⟩ := run?_eq_some.mp hr
      have hb := became_of_state? hst₁
      obtain ⟨news, hturn⟩ := turns_of_became hs hst hb
      have ht₁ : st₁.run.status.isTerminal = true := by rwa [(hturn.of_terminal ht).1]
      rw [ih (sound_perform hs m) hst₁ ht₁ hh.2 hst', entered_of_terminal hst ht hb]

/-! ## 6. The discipline of a dispatch -/

/-- How the cases of a run go into the case runner, as seen after a history. -/
structure Admits (s : Supervisor) (past : List Move) (id : String) (st : RunState) : Prop where
  /-- No more cases are inside than there are slots. -/
  bound : ((s.inside id past).length : Int) ≤ s.settings.slots st.run.config
  /-- They entered in the order of the list. -/
  order : st.entered <+: st.run.testCases
  /-- None entered twice. -/
  once : (st.entered.map (·.id)).Nodup
  /-- While the run is running, the next ones enter as soon as slots are free. -/
  next : s.Unbroken past → st.run.status = .running → ¬ st.run.config.timeLimit.IsBeyond →
    ∃ st', (s.after (past ++ [.occur id .openPool, .occur id .fill])).state? id = some st' ∧
      st'.entered = st.entered ++ (st.run.testCases.drop st.entered.length).take
        ((s.settings.slots st.run.config).toNat - (s.inside id past).length)
  /-- After the run has ended none enters any more. -/
  ended : st.run.status.isTerminal = true → ∀ future st', (s.after past).Holds id future →
    (s.after (past ++ future)).state? id = some st' → st'.entered = st.entered
  /-- None ever enters where there is no moment for the time limit. -/
  never : st.run.config.timeLimit.IsBeyond → st.entered = []

/-- A run with a time limit beyond the format is running, its case waits and every slot is free; the case
    does not enter. -/
theorem none_enters_beyond :
    let s := Sample.supervisor 1 fun _ => none
    let next : List Move := [.occur Sample.runId .openPool, .occur Sample.runId .fill]
    (s.inside Sample.runId Sample.lost).length = 0 ∧
      ((s.after Sample.lost).run? Sample.runId).map (·.status) = some .running ∧
      ((s.after (Sample.lost ++ next)).state? Sample.runId).map (·.entered.length) = some 0 := by
  decide +kernel

end Supervisor

end StepRunner
