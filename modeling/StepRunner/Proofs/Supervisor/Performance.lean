import StepRunner.Proofs.Supervisor.Aggregate
import StepRunner.Proofs.Supervisor.Slots

/-!
# Runs that nobody disturbs

A run whose cases end as they end, and to which nothing else happens, comes to the same results in
whatever order its cases end and however many of them run at once.

* `CaseEnd`: how a case ends by itself;
* `Supervisor.Plays`: nothing happens to a run in a history but what goes on by itself, its cases end as
  they were to, and no save of it breaks;
* `RunState.Conforms`: dispatch, status, results and pool of such a run go together; every change keeps it
  (`conforms_of_on`);
* `Dispatch.toGo`: how many changes are left to such a run at most; every change lowers it
  (`toGo_of_on`), so it comes to an end (`Steers.strides_le`, `Steers.exists_finished`);
* `performances_agree`: two performances of the same cases agree.
-/

namespace StepRunner

deriving instance DecidableEq for CaseOutcome

/-! ## 1. How a case ends -/

/-- How a case ends by itself: with a result, or because something breaks. -/
inductive CaseEnd where
  | returns (r : CaseResult)
  | breaks (message : String)

namespace CaseEnd

/-- What the dispatch sees of the end of a case. -/
def outcome : CaseEnd → CaseOutcome
  | .returns r => .result r
  | .breaks m => .broke m

/-- The result of a case that ends now. -/
def result (now : Instant) : CaseEnd → CaseResult
  | .returns r => r
  | .breaks m => Supervisor.brokenResult now m

/-- A result without the moments that were noted as something broke. -/
def timeless (e : CaseEnd) (r : CaseResult) : CaseResult :=
  match e with
  | .returns _ => r
  | .breaks _ => { r with startedAt := ⟨0⟩, completedAt := ⟨0⟩ }

theorem handedIn_outcome (e : CaseEnd) (now : Instant) :
    e.outcome.handedIn now = .result (e.result now) := by
  cases e <;> rfl

theorem timeless_result (e : CaseEnd) (now : Instant) : e.timeless (e.result now) = e.result ⟨0⟩ := by
  cases e <;> rfl

theorem status_timeless (e : CaseEnd) (r : CaseResult) : (e.timeless r).status = r.status := by
  cases e <;> rfl

end CaseEnd

namespace CaseResults

variable {rs : CaseResults} {script : String → CaseEnd} {id : String} {r : CaseResult}
  {e : String × Option CaseResult}

/-- The results without the moments that were noted as something broke. -/
def timeless (script : String → CaseEnd) (rs : CaseResults) : CaseResults :=
  rs.map fun e => (e.1, e.2.map (script e.1).timeless)

/-- Every result in the table is that of its case, whenever it ended. -/
def Follow (script : String → CaseEnd) (rs : CaseResults) : Prop :=
  ∀ e ∈ rs, ∀ r, e.2 = some r → ∃ now, r = (script e.1).result now

theorem mem_of_mem_put (h : e ∈ rs.put id r) : e ∈ rs ∨ e = (id, some r) := by
  induction rs with
  | nil => exact .inr (List.mem_singleton.mp h)
  | cons e' rest ih =>
      obtain ⟨k, v⟩ := e'
      unfold put at h
      split at h
      · next hk =>
          rcases List.mem_cons.mp h with rfl | h
          · exact .inr (by rw [hk])
          · exact .inl (List.mem_cons_of_mem _ h)
      · rcases List.mem_cons.mp h with rfl | h
        · exact .inl List.mem_cons_self
        · exact (ih h).imp_left (List.mem_cons_of_mem _)

theorem Follow.put (h : rs.Follow script) {now : Instant} (hr : r = (script id).result now) :
    (rs.put id r).Follow script := by
  intro e he r' hr'
  rcases mem_of_mem_put he with he | rfl
  · exact h e he r' hr'
  · cases hr'
    exact ⟨now, hr⟩

/-- **A full table** holds for every case what its end brings. -/
theorem Follow.timeless_eq (h : rs.Follow script) (hn : rs.tally none = 0) :
    rs.timeless script = (rs.map (·.1)).map fun k => (k, some ((script k).result ⟨0⟩)) := by
  unfold timeless
  rw [List.map_map]
  refine List.map_congr_left fun e he => ?_
  have hsome := List.countP_eq_zero.mp hn e he
  obtain ⟨k, v⟩ := e
  cases v with
  | none => exact absurd rfl hsome
  | some r =>
      obtain ⟨now, hr⟩ := h _ he r rfl
      have hr : r = (script k).result now := hr
      subst hr
      show (k, some ((script k).timeless ((script k).result now))) = _
      rw [CaseEnd.timeless_result]
      rfl

theorem tally_timeless (script : String → CaseEnd) (rs : CaseResults) (verdict : Option CaseStatus) :
    (rs.timeless script).tally verdict = rs.tally verdict := by
  unfold tally timeless
  rw [List.countP_map]
  refine List.countP_congr fun e _ => ?_
  obtain ⟨k, v⟩ := e
  cases v with
  | none => exact Iff.rfl
  | some r => simp [CaseEnd.status_timeless]

end CaseResults

/-! ## 2. What goes on by itself -/

/-- The occasion goes on by itself, and a case that ends does so as it was to. -/
def Occasion.Follows (script : String → CaseEnd) : Occasion → Prop
  | .handIn caseId outcome => outcome = (script caseId).outcome
  | .expire | .cancel => False
  | _ => True

instance Occasion.decidableFollows (script : String → CaseEnd) :
    (o : Occasion) → Decidable (o.Follows script)
  | .handIn caseId outcome => inferInstanceAs (Decidable (outcome = (script caseId).outcome))
  | .expire | .cancel => isFalse id
  | .launch | .begin | .openPool | .fill | .collect _ | .complete | .giveUp | .depart => isTrue trivial

/-- The occasion is one to fill slots. -/
def Occasion.isFill : Occasion → Bool
  | .fill => true
  | _ => false

/-- A run goes on in an occasion: there is a change, and slots are filled only where a case enters. -/
def RunState.goesOn (st : RunState) (settings : Settings) (now : Instant) (o : Occasion) : Bool :=
  (st.on settings now o).any fun t => !o.isFill || t.next.entered != st.entered

/-- Where the run stands, if nothing comes from outside: it is pending up to the begin, running as long
    as there is a pool, and complete afterwards; beyond the limit it is left running. -/
def Dispatch.InStep (limit : TimeLimit) (status : RunStatus) : Dispatch → Prop
  | .idle | .called => status = .pending
  | .begun => status = .running
  | .active _ => status = .running ∧ ¬ limit.IsBeyond
  | .broken _ => False
  | .leaving | .ended =>
    status = .completed ∧ ¬ limit.IsBeyond ∨ status = .running ∧ limit.IsBeyond

/-- The pool has a slot, and every case that has ended unseen did so as it was to. -/
structure Pool.Follows (script : String → CaseEnd) (p : Pool) : Prop where
  slots : 1 ≤ p.slots
  unseen : ∀ e ∈ p.finished, ∃ now, e.2 = .result ((script e.1.id).result now)

/-- How a run stands that came from another by itself: its counts are right, every result is that of its
    case, and dispatch, status and pool go together. -/
structure RunState.Conforms (origin : Run) (script : String → CaseEnd) (st : RunState) : Prop where
  cases : st.run.testCases = origin.testCases
  config : st.run.config = origin.config
  aggregate : st.run.Aggregate
  results : st.run.caseResults.Follow script
  pool : ∀ p, st.dispatch = .active p → p.Follows script
  inStep : st.dispatch.InStep origin.config.timeLimit st.run.status

namespace RunState

variable {st : RunState} {settings : Settings} {now : Instant} {o : Occasion} {t : Change}
  {origin : Run} {script : String → CaseEnd}

/-- It is run and dispatch alone that count. -/
theorem Conforms.congr {st' : RunState} (h : st.Conforms origin script) (hr : st'.run = st.run)
    (hd : st'.dispatch = st.dispatch) : st'.Conforms origin script := by
  cases st
  cases st'
  cases hr
  cases hd
  exact ⟨h.cases, h.config, h.aggregate, h.results, h.pool, h.inStep⟩

theorem results_of_goes (hg : st.Goes now o t) (h : st.Conforms origin script) :
    t.next.run.caseResults.Follow script := by
  cases hg with
  | record p c caseId r hd hc ha =>
      obtain ⟨moment, hr⟩ := (h.pool p hd).unseen _ (List.mem_of_find?_eq_some hc)
      exact h.results.put (HandedIn.result.inj hr)
  | launch | begin | beginLate | openPool | openNone | openNever | fill | handIn | drop | noSession
  | complete | stop | giveUp | giveUpLate | depart | expire | cancel => exact h.results

theorem pool_of_on (hon : st.on settings now o = some t)
    (hslots : 1 ≤ settings.slots st.run.config) (ho : o.Follows script)
    (h : st.Conforms origin script) : ∀ p, t.next.dispatch = .active p → p.Follows script := by
  intro q hq
  cases goes_of_on hon with
  | openPool slots deadline lines hd hl =>
      rw [Dispatch.active.inj (hq.symm.trans (eq_active_of_on hd hslots hl hon))]
      have hone : 1 ≤ (settings.slots st.run.config).toNat := by omega
      exact ⟨hone, nofun⟩
  | fill p hd ho =>
      obtain rfl := Dispatch.active.inj hq
      exact ⟨(h.pool p hd).slots, (h.pool p hd).unseen⟩
  | handIn p c caseId outcome hd hc =>
      obtain rfl := Dispatch.active.inj hq
      refine ⟨(h.pool p hd).slots, fun e he => ?_⟩
      rcases List.mem_append.mp he with he | he
      · exact (h.pool p hd).unseen e he
      · obtain rfl := List.mem_singleton.mp he
        have hid : c.id = caseId := by simpa using List.find?_some hc
        have ho : outcome = (script caseId).outcome := ho
        exact ⟨now, by rw [ho, CaseEnd.handedIn_outcome, hid]⟩
  | record p _ _ _ hd _ _ | drop p _ _ _ _ hd _ _ _ =>
      obtain rfl := Dispatch.active.inj hq
      exact ⟨(h.pool p hd).slots, fun e he => (h.pool p hd).unseen e (List.mem_of_mem_eraseP he)⟩
  | expire | cancel => exact h.pool q hq
  | launch | begin | beginLate | openNone | openNever | noSession | complete | stop | giveUp
  | giveUpLate | depart => cases hq

theorem inStep_of_on (hon : st.on settings now o = some t)
    (hslots : 1 ≤ settings.slots st.run.config) (ho : o.Follows script)
    (h : st.Conforms origin script) :
    t.next.dispatch.InStep origin.config.timeLimit t.next.run.status := by
  have hs := h.inStep
  have hc := h.config
  cases goes_of_on hon with
  | launch hd =>
      rw [hd] at hs
      exact hs
  | begin hd _ => rfl
  | beginLate hd hn =>
      rw [hd] at hs
      exact absurd hs hn
  | openPool slots deadline lines hd hl =>
      rw [hd] at hs
      refine ⟨hs, fun hb => ?_⟩
      rw [← hc] at hb
      rw [TimeLimit.deadline?_eq_none_iff.mpr hb] at hl
      cases hl
  | openNone message deadline lines hd hl =>
      cases eq_active_of_on hd hslots hl hon
  | openNever lines hd hl =>
      rw [hd] at hs
      rw [TimeLimit.deadline?_eq_none_iff, hc] at hl
      exact .inr ⟨hs, hl⟩
  | fill p hd _ | handIn p _ _ _ hd _ | record p _ _ _ hd _ _ | drop p _ _ _ _ hd _ _ _ =>
      rw [hd] at hs
      exact hs
  | noSession p c caseId message hd hf _ =>
      -- a case that ends as it was to hands in a result
      obtain ⟨moment, hx⟩ := (h.pool p hd).unseen _ (List.mem_of_find?_eq_some hf)
      cases hx
  | complete p hd _ _ =>
      rw [hd] at hs
      exact .inl ⟨rfl, hs.2⟩
  | stop p hd hopen _ =>
      rw [hd] at hs
      rw [Run.isOpen_of_running hs.1] at hopen
      cases hopen
  | giveUp message hd _ | giveUpLate message hd _ =>
      rw [hd] at hs
      exact hs.elim
  | depart hd =>
      rw [hd] at hs
      exact hs
  | expire | cancel => exact ho.elim

/-- **Every change keeps a run on its way**, as long as nothing comes from outside. -/
theorem conforms_of_on (hon : st.on settings now o = some t)
    (hslots : 1 ≤ settings.slots origin.config) (ho : o.Follows script)
    (hf : st.dispatch.Fits st.run) (h : st.Conforms origin script) : t.next.Conforms origin script := by
  have hg := goes_of_on hon
  rw [← h.config] at hslots
  exact
    { cases := (testCases_of_goes hg).trans h.cases
      config := (config_of_goes hg).trans h.config
      aggregate := (turns_of_goes hg hf).aggregate h.aggregate
      results := results_of_goes hg h
      pool := pool_of_on hon hslots ho h
      inStep := inStep_of_on hon hslots ho h }

end RunState

/-! ## 3. How much is left to do -/

/-- How often a run of so many cases goes on at most: a case enters, ends and is looked at. -/
def Dispatch.toGo (cases : Nat) : Dispatch → Nat
  | .idle => 3 * cases + 5
  | .called => 3 * cases + 4
  | .begun => 3 * cases + 3
  | .active p => 3 * p.waiting.length + 2 * p.inFlight.length + p.finished.length + 2
  | .leaving => 1
  | .broken _ | .ended => 0

namespace Dispatch

variable {n : Nat} {p : Pool} {c : TestCase}

/-- A case that enters is one step nearer to its end. -/
theorem toGo_filled : (Dispatch.active p.filled).toGo n + p.entering.length =
    (Dispatch.active p).toGo n := by
  have hlength : p.entering.length = min p.free p.waiting.length := List.length_take
  show 3 * (p.waiting.drop p.free).length + 2 * (p.inFlight ++ p.entering).length +
    p.finished.length + 2 + p.entering.length =
    3 * p.waiting.length + 2 * p.inFlight.length + p.finished.length + 2
  rw [List.length_drop, List.length_append]
  omega

theorem toGo_withEnd (hc : c ∈ p.inFlight) (x : HandedIn) :
    (Dispatch.active (p.withEnd c x)).toGo n < (Dispatch.active p).toGo n := by
  have hlt : (p.inFlight.filter (·.id != c.id)).length < p.inFlight.length :=
    List.length_filter_lt_length_iff_exists.mpr ⟨c, hc, by simp⟩
  show 3 * p.waiting.length + 2 * (p.inFlight.filter (·.id != c.id)).length +
    (p.finished ++ [(c, x)]).length + 2 <
    3 * p.waiting.length + 2 * p.inFlight.length + p.finished.length + 2
  rw [List.length_append, List.length_singleton]
  omega

theorem toGo_without {e : TestCase × HandedIn} {caseId : String}
    (he : p.finished.find? (·.1.id == caseId) = some e) :
    (Dispatch.active (p.without caseId)).toGo n < (Dispatch.active p).toGo n := by
  have hmem := List.mem_of_find?_eq_some he
  have hfound := List.find?_some he
  have hlength : (p.finished.eraseP (·.1.id == caseId)).length = p.finished.length - 1 :=
    List.length_eraseP_of_mem hmem hfound
  have hpos := List.length_pos_of_mem hmem
  show 3 * p.waiting.length + 2 * p.inFlight.length +
    (p.finished.eraseP (·.1.id == caseId)).length + 2 <
    3 * p.waiting.length + 2 * p.inFlight.length + p.finished.length + 2
  omega

end Dispatch

namespace RunState

variable {st : RunState} {settings : Settings} {now : Instant} {o : Occasion} {t : Change}
  {origin : Run} {script : String → CaseEnd}

/-- **Every change brings a run nearer to its end**, but for slots that are filled where no case enters. -/
theorem toGo_of_on (hon : st.on settings now o = some t) (ho : o.Follows script)
    (h : st.Conforms origin script) :
    t.next.dispatch.toGo origin.testCases.length + (if st.goesOn settings now o then 1 else 0) ≤
      st.dispatch.toGo origin.testCases.length := by
  have hs := h.inStep
  have hcases := h.cases
  have hle : (if st.goesOn settings now o then 1 else 0) ≤ 1 := by
    split
    · exact Nat.le_refl 1
    · exact Nat.zero_le 1
  cases goes_of_on hon with
  | fill p hd hopen =>
      have hcount : st.goesOn settings now .fill = ((st.entered ++ p.entering) != st.entered) := by
        unfold goesOn
        rw [hon]
        rfl
      -- only where a case enters is there anything to count
      have hone : (if ((st.entered ++ p.entering) != st.entered) = true then 1 else 0) ≤
          p.entering.length := by
        split
        · next hne =>
            refine List.length_pos_of_ne_nil fun hnil => ?_
            simp [hnil] at hne
        · exact Nat.zero_le _
      rw [hd, hcount]
      exact (Nat.add_le_add_left hone _).trans_eq Dispatch.toGo_filled
  | handIn p c caseId outcome hd hc =>
      rw [hd]
      exact (Nat.add_le_add_left hle _).trans
        (Dispatch.toGo_withEnd (List.mem_of_find?_eq_some hc) (outcome.handedIn now))
  | record p c caseId r hd hc _ | drop p c caseId x lines hd hc _ _ =>
      rw [hd]
      exact (Nat.add_le_add_left hle _).trans (Dispatch.toGo_without hc)
  | openPool slots deadline lines hd hl =>
      rw [hd]
      show 3 * st.run.testCases.length + 0 + 0 + 2 + _ ≤ 3 * origin.testCases.length + 3
      rw [hcases]
      omega
  | launch hd | begin hd _ | beginLate hd _ | openNone _ _ _ hd _ | openNever _ hd _ | stop _ hd _ _
  | depart hd =>
      rw [hd]
      simp only [Dispatch.toGo]
      omega
  | noSession _ _ _ _ hd _ _ | complete _ hd _ _ =>
      rw [hd]
      show 1 + _ ≤ _ + 2
      omega
  | giveUp message hd _ | giveUpLate message hd _ =>
      rw [hd] at hs
      exact hs.elim
  | expire | cancel => exact ho.elim

/-! ## 4. Where nothing goes on -/

theorem goesOn_of_on (hon : st.on settings now o = some t)
    (hfill : o.isFill = true → t.next.entered ≠ st.entered) : st.goesOn settings now o = true := by
  unfold goesOn
  rw [hon]
  cases hf : o.isFill with
  | true => simpa using hfill hf
  | false => simp

/-- But for the filling of slots, a run goes on wherever there is a change. -/
theorem on_eq_none_of_not_goesOn (hf : o.isFill = false) (h : st.goesOn settings now o = false) :
    st.on settings now o = none := by
  cases hon : st.on settings now o with
  | none => rfl
  | some t =>
      have hgo := goesOn_of_on hon fun e => absurd e (by simp [hf])
      rw [h] at hgo
      cases hgo

/-- A pool in which nothing goes on is empty: a case in flight would end, one that has ended would be
    looked at, and one that waits would take a free slot. -/
theorem isEmpty_of_not_goesOn {p : Pool} (hd : st.dispatch = .active p) (hslots : 1 ≤ p.slots)
    (hopen : st.run.isOpen = true)
    (hr : ∀ o : Occasion, o.Follows script → st.goesOn settings now o = false) :
    p.isEmpty = true := by
  have hflight : p.inFlight = [] := by
    cases hf : p.inFlight with
    | nil => rfl
    | cons c rest =>
        have hon := on_eq_none_of_not_goesOn rfl (hr (.handIn c.id (script c.id).outcome) rfl)
        rw [on.eq_def, hd] at hon
        have hnone := List.find?_eq_none.mp (Option.map_eq_none_iff.mp hon) c
        exact absurd (beq_self_eq_true c.id) (hnone (hf ▸ List.mem_cons_self))
  have hfinished : p.finished = [] := by
    cases hf : p.finished with
    | nil => rfl
    | cons e rest =>
        have hon := on_eq_none_of_not_goesOn rfl (hr (.collect e.1.id) trivial)
        rw [on.eq_def, hd] at hon
        have hnone := List.find?_eq_none.mp (Option.map_eq_none_iff.mp hon) e
        exact absurd (beq_self_eq_true e.1.id) (hnone (hf ▸ List.mem_cons_self))
  have hwaiting : p.waiting = [] := by
    have hon : st.on settings now .fill = some { next := { st with
        dispatch := .active p.filled
        entered := st.entered ++ p.entering } } := by
      rw [on.eq_def, hd]
      exact if_pos hopen
    have hnone : p.entering = [] := by
      refine Classical.byContradiction fun hne => ?_
      have hgo := goesOn_of_on hon fun _ => by simpa using hne
      rw [hr .fill trivial] at hgo
      cases hgo
    have hfree : p.free = p.slots := by
      unfold Pool.free
      rw [hflight]
      rfl
    have htake : p.waiting.take p.slots = [] := hfree ▸ hnone
    rcases List.take_eq_nil_iff.mp htake with h | h
    · omega
    · exact h
  simp [Pool.isEmpty, Pool.isQuiet, hflight, hfinished, hwaiting]

/-- **A run with which nothing goes on** has been put to rest. -/
theorem ended_of_not_goesOn (h : st.Conforms origin script)
    (hr : ∀ o : Occasion, o.Follows script → st.goesOn settings now o = false) :
    st.dispatch = .ended := by
  have hs := h.inStep
  have hnot {o : Occasion} (ho : o.Follows script) (hf : o.isFill = false) :
      st.on settings now o = none := on_eq_none_of_not_goesOn hf (hr o ho)
  cases hd : st.dispatch with
  | idle =>
      have hon := hnot (o := .launch) trivial rfl
      rw [on.eq_def, hd] at hon
      cases hon
  | called =>
      have hon := hnot (o := .begin) trivial rfl
      rw [on.eq_def, hd] at hon
      cases hon
  | begun =>
      have hon := hnot (o := .openPool) trivial rfl
      rw [on_openPool hd] at hon
      cases hon
  | active p =>
      have hrun : st.run.status = .running := by
        rw [hd] at hs
        exact hs.1
      have hopen := Run.isOpen_of_running hrun
      have hempty := isEmpty_of_not_goesOn hd (h.pool p hd).slots hopen hr
      have hon := hnot (o := .complete) trivial rfl
      rw [on.eq_def, hd] at hon
      simp [hopen, hempty] at hon
  | broken message =>
      rw [hd] at hs
      exact hs.elim
  | leaving =>
      have hon := hnot (o := .depart) trivial rfl
      rw [on.eq_def, hd] at hon
      cases hon
  | ended => rfl

/-- **Where such a run ends up**: complete, or left running where its limit is beyond the format. -/
theorem status_of_atRest (h : st.Conforms origin script) (hr : st.AtRest) :
    st.run.status = .completed ∧ ¬ origin.config.timeLimit.IsBeyond ∨
      st.run.status = .running ∧ origin.config.timeLimit.IsBeyond := by
  have hs := h.inStep
  rcases hr with ht | hd
  · cases hd : st.dispatch with
    | idle | called | begun =>
        rw [hd] at hs
        have hs : st.run.status = _ := hs
        rw [hs] at ht
        cases ht
    | active p =>
        rw [hd] at hs
        rw [hs.1] at ht
        cases ht
    | broken message =>
        rw [hd] at hs
        exact hs.elim
    | leaving | ended =>
        rw [hd] at hs
        exact hs
  · rw [hd] at hs
    exact hs

end RunState

/-! ## 5. Over a history -/

namespace Supervisor

/-- A move does not come between a run and its end: what happens to the run goes on by itself, its cases
    end as they were to, and its save does not break. -/
def Spares (script : String → CaseEnd) (id : String) (s : Supervisor) : Move → Prop
  | .occur k o => k = id → o.Follows script ∧ ¬ s.Breaks (.occur k o)
  | _ => True

instance decidableSpares (script : String → CaseEnd) (id : String) (s : Supervisor) :
    (m : Move) → Decidable (s.Spares script id m)
  | .occur k o => inferInstanceAs (Decidable (k = id → o.Follows script ∧ ¬ s.Breaks (.occur k o)))
  | .register _ | .subscribe _ | .unsubscribe _ | .read _ | .clock _ => isTrue trivial

/-- No move of a history comes between a run and its end, up to the one in which it leaves memory. -/
def Plays (script : String → CaseEnd) (id : String) (s : Supervisor) : List Move → Prop
  | [] => True
  | m :: h => (s.state? id).isSome = true →
    s.Spares script id m ∧ (s.perform m).Plays script id h

instance decidablePlays (script : String → CaseEnd) (id : String) (s : Supervisor) :
    (h : List Move) → Decidable (s.Plays script id h)
  | [] => isTrue trivial
  | m :: h =>
    have : Decidable ((s.perform m).Plays script id h) := decidablePlays script id (s.perform m) h
    inferInstanceAs (Decidable ((s.state? id).isSome = true →
      s.Spares script id m ∧ (s.perform m).Plays script id h))

/-- Nothing goes on with a run by itself any more. -/
def Rests (script : String → CaseEnd) (id : String) (s : Supervisor) : Prop :=
  ∀ st, s.state? id = some st → ∀ o : Occasion, o.Follows script →
    st.goesOn s.settings s.now o = false

/-- How often a run goes on in a move. -/
def stride (s : Supervisor) (id : String) : Move → Nat
  | .occur k o =>
    if k = id ∧ (s.state? id).any fun st => st.goesOn s.settings s.now o then 1 else 0
  | _ => 0

/-- How often a run goes on in a history, up to the move in which it leaves memory. -/
def strides (s : Supervisor) (id : String) : List Move → Nat
  | [] => 0
  | m :: h => if (s.state? id).isSome then s.stride id m + (s.perform m).strides id h else 0

variable {s : Supervisor} {id : String} {m : Move} {h : List Move} {st st' : RunState}
  {origin : Run} {script : String → CaseEnd}

/-- Nothing goes on with a run whose dispatch has ended. -/
theorem rests_of_ended (h : (s.state? id).map (·.dispatch) = some .ended) : s.Rests script id := by
  intro st hst o ho
  rw [hst] at h
  have hd : st.dispatch = .ended := Option.some.inj h
  unfold RunState.goesOn
  rw [RunState.on.eq_def, hd]
  cases o with
  | cancel => exact ho.elim
  | launch | begin | openPool | fill | handIn | collect | complete | giveUp | depart | expire => rfl

theorem stride_of_kept (hst : s.state? id = some st)
    (hm : ∀ o, m = .occur id o → s.change? id o = none) : s.stride id m = 0 := by
  cases m with
  | occur k o =>
      refine if_neg ?_
      intro hgo
      obtain ⟨rfl, hgo⟩ := hgo
      have hon := hm o rfl
      rw [change?_of_state? hst] at hon
      simp [hst, RunState.goesOn, hon] at hgo
  | register | subscribe | unsubscribe | read | clock => rfl

theorem isSome_of_holds_start (hh : s.Holds id h) : (s.run? id).isSome = true := by
  cases h with
  | nil => exact hh
  | cons m h => exact hh.1

/-- A condition that every change of a run keeps as long as nothing comes from outside, with a measure of
    how much is left to do, and under which a run with which nothing goes on has been put to rest. -/
structure Steers (settings : Settings) (script : String → CaseEnd) (I : RunState → Prop)
    (toGo : Dispatch → Nat) : Prop where
  /-- It is run and dispatch alone that count. -/
  congr : ∀ {st st' : RunState}, I st → st'.run = st.run → st'.dispatch = st.dispatch → I st'
  step : ∀ {st : RunState} {now : Instant} {o : Occasion} {t : Change},
    st.on settings now o = some t → o.Follows script → st.dispatch.Fits st.run → I st →
      I t.next ∧ toGo t.next.dispatch + (if st.goesOn settings now o then 1 else 0) ≤ toGo st.dispatch
  ended : ∀ {st : RunState} {now : Instant}, I st →
    (∀ o : Occasion, o.Follows script → st.goesOn settings now o = false) → st.dispatch = .ended

namespace Steers

variable {I : RunState → Prop} {toGo : Dispatch → Nat}

/-- **One move** of a performance keeps the run on its way and brings it nearer to its end. -/
theorem became (hI : Steers s.settings script I toGo) (hs : s.Sound) (hst : s.state? id = some st)
    (hc : I st) (hm : s.Spares script id m) (hb : s.Became m id st') :
    I st' ∧ toGo st'.dispatch + s.stride id m ≤ toGo st.dispatch := by
  cases hb with
  | kept _ hk hnone =>
      rw [hst] at hk
      cases hk
      exact ⟨hc, by rw [stride_of_kept hst hnone]; exact Nat.le_refl _⟩
  | registered run _ _ _ hn =>
      rw [hst] at hn
      cases hn
  | changed st₀ o t hocc hk hchange hg =>
      rw [hst] at hk
      cases hk
      subst hocc
      obtain ⟨hfollow, hsave⟩ := hm rfl
      have hon := (change?_of_state? hst).symm.trans hchange
      obtain ⟨hnext, hless⟩ := hI.step hon hfollow (hs.fits id st hst) hc
      have hdispatch := dispatch_outcome_of_no_fault (keep_of_not_breaks hchange hsave)
      have hstride : s.stride id (.occur id o) =
          if st.goesOn s.settings s.now o then 1 else 0 := by
        unfold stride
        simp [hst]
      refine ⟨hI.congr hnext run_outcome hdispatch, ?_⟩
      rw [hdispatch, hstride]
      exact hless

/-- **A performance goes on only so often**, however the moves come. -/
theorem strides_le (hI : Steers s.settings script I toGo) (hs : s.Sound)
    (hst : s.state? id = some st) (hc : I st) (hp : s.Plays script id h) :
    s.strides id h ≤ toGo st.dispatch := by
  induction h generalizing s st with
  | nil => exact Nat.zero_le _
  | cons m h ih =>
      obtain ⟨hm, hp⟩ := hp (by rw [hst]; rfl)
      obtain ⟨st', hb, hstay⟩ := stay_step hs hst m
      obtain ⟨hc', hless⟩ := hI.became hs hst hc hm hb
      have hrest : (s.perform m).strides id h ≤ toGo st'.dispatch := by
        rcases hstay with ⟨hst', -⟩ | ⟨hnone, -⟩
        · exact ih (by rwa [(frame_perform s m).1]) (sound_perform hs m) hst' hc' hp
        · cases h with
          | nil => exact Nat.zero_le _
          | cons m' h =>
              unfold strides
              rw [hnone]
              exact Nat.zero_le _
      unfold strides
      rw [hst]
      show s.stride id m + (s.perform m).strides id h ≤ _
      omega

/-- **Where a performance ends**: the last state of the run in memory is one at rest. If the run is still
    there at the end, its dispatch has ended. -/
theorem last (hI : Steers s.settings script I toGo) (hs : s.Sound) (hst : s.state? id = some st)
    (hc : I st) (hp : s.Plays script id h) (hfin : s.Holds id h → (s.after h).Rests script id) :
    ∃ st' : RunState, (s.stay id h).getLast? = some st'.run ∧ I st' ∧ st'.AtRest ∧
      (s.Holds id h → (s.after h).state? id = some st' ∧ st'.dispatch = .ended) := by
  have hr := run?_of_state? hst
  induction h generalizing s st with
  | nil =>
      have hrests := hfin (by show (s.run? id).isSome = true; rw [hr]; rfl) st hst
      have hended := hI.ended hc hrests
      rw [stay_nil hr]
      exact ⟨st, rfl, hc, .inr hended, fun _ => ⟨hst, hended⟩⟩
  | cons m h ih =>
      obtain ⟨hm, hp⟩ := hp (by rw [hst]; rfl)
      obtain ⟨st', hb, hstay⟩ := stay_step hs hst m
      obtain ⟨hc', -⟩ := hI.became hs hst hc hm hb
      rcases hstay with ⟨hst', hstay⟩ | ⟨hleft, hrest, -, hstay⟩
      · obtain ⟨last, hlast, hconf, hrest, hend⟩ := ih (by rwa [(frame_perform s m).1])
          (sound_perform hs m) hst' hc' hp (fun hh => hfin ⟨by rw [hr]; rfl, hh⟩) (run?_of_state? hst')
        refine ⟨last, ?_, hconf, hrest, fun hh => hend hh.2⟩
        rw [hstay, List.getLast?_cons, hlast]
        rfl
      · rw [hstay]
        refine ⟨st', rfl, hc', hrest, fun hh => ?_⟩
        have hheld := isSome_of_holds_start hh.2
        rw [run?_eq_none.mpr hleft] at hheld
        cases hheld

/-- **Whatever goes on with a run by itself comes to an end**: as long as no save of it breaks, the
    occasions that are left can be put in some order after which nothing goes on any more. -/
theorem exists_finished (hI : Steers s.settings script I toGo) (hs : s.Sound)
    (hst : s.state? id = some st) (hc : I st)
    (hsave : ∀ h o, ¬ (s.after h).Breaks (.occur id o)) :
    ∃ h, s.Plays script id h ∧ (s.Holds id h → (s.after h).Rests script id) := by
  -- by how much is left to do
  induction hn : toGo st.dispatch using Nat.strongRecOn generalizing s st with
  | ind n ih =>
  subst hn
  by_cases hr : s.Rests script id
  · exact ⟨[], trivial, fun _ => hr⟩
  · obtain ⟨o, ho, hgo⟩ : ∃ o : Occasion, o.Follows script ∧
        st.goesOn s.settings s.now o = true := by
      refine Classical.byContradiction fun hnone => hr fun st' hst' o ho => ?_
      rw [hst] at hst'
      cases hst'
      exact Bool.eq_false_iff.mpr fun hgo => hnone ⟨o, ho, hgo⟩
    have hspares : s.Spares script id (.occur id o) := fun _ => ⟨ho, hsave [] o⟩
    obtain ⟨st', hb, hstay⟩ := stay_step hs hst (.occur id o)
    obtain ⟨hc', hless⟩ := hI.became hs hst hc hspares hb
    have hstride : s.stride id (.occur id o) = 1 := if_pos ⟨rfl, by simp [hst, hgo]⟩
    rcases hstay with ⟨hst', -⟩ | ⟨hleft, -⟩
    · obtain ⟨h, hplays, hfin⟩ := ih _ (by omega) (by rwa [(frame_perform s _).1])
        (sound_perform hs _) hst' hc' (fun h => hsave (.occur id o :: h)) rfl
      exact ⟨.occur id o :: h, fun _ => ⟨hspares, hplays⟩, fun hh => hfin hh.2⟩
    · refine ⟨[.occur id o], fun _ => ⟨hspares, trivial⟩, fun hh => ?_⟩
      have hheld : ((s.perform (.occur id o)).run? id).isSome = true := hh.2
      rw [run?_eq_none.mpr hleft] at hheld
      cases hheld

end Steers

/-- With a slot at least, every change keeps a run on its way and brings it nearer to its end. -/
theorem steers_conforms {settings : Settings} (script : String → CaseEnd)
    (hslots : 1 ≤ settings.slots origin.config) :
    Steers settings script (·.Conforms origin script) (Dispatch.toGo origin.testCases.length) where
  congr := RunState.Conforms.congr
  step hon ho hf hc := ⟨RunState.conforms_of_on hon hslots ho hf hc, RunState.toGo_of_on hon ho hc⟩
  ended := RunState.ended_of_not_goesOn

/-! ## 6. Performances -/

/-- A run that is to be registered, the supervisor that is to take it over, and what happens then. -/
structure Performance where
  settings : Settings
  archive : Archive
  now : Instant
  /-- What happened before the run is registered. -/
  past : List Move
  run : Run
  /-- What happens after it. -/
  future : List Move

namespace Performance

/-- The supervisor that has taken over the run. -/
def start (p : Performance) : Supervisor :=
  ((new p.settings p.archive p.now).after p.past).perform (.register p.run)

/-- The states of the run, up to the one in which it leaves memory. -/
def states (p : Performance) : List Run := p.start.stay p.run.id p.future

/-- The run has just been made of these cases, and it may run one at least at a time; from its start on
    nothing happens to it but what goes on by itself, until nothing does any more. -/
structure Of (p : Performance) (cases : List TestCase) (script : String → CaseEnd) : Prop where
  made : ∃ id project config createdAt, 1 ≤ config.concurrency ∧
    Run.make { id, project, testCases := cases, config, counts := { total := 0 }, caseResults := []
               createdAt } none = .ok p.run
  workers : 1 ≤ p.settings.maxConcurrency
  accepted : ((new p.settings p.archive p.now).after p.past).accepts p.run = true
  plays : p.start.Plays script p.run.id p.future
  finished : p.start.Holds p.run.id p.future → (p.start.after p.future).Rests script p.run.id

end Performance

end Supervisor

/-- The ids of the cases as the snapshot of a run lists them. -/
def Run.listed (run : Run) : List Json :=
  match run.toJson.getD "testResults" with
  | .arr entries => entries.map (·.getD "testCaseId")
  | _ => []

theorem Run.listed_eq (run : Run) : run.listed = run.testCases.map fun c => .str c.id := by
  show (run.testCases.map run.caseJson).map (·.getD "testCaseId") = _
  rw [List.map_map]
  rfl

/-- Two runs came to the same results, but for the moments that were noted as something broke. -/
structure Run.Agrees (script : String → CaseEnd) (run run' : Run) : Prop where
  results : run.caseResults.timeless script = run'.caseResults.timeless script
  passed : run.counts.passed = run'.counts.passed
  failed : run.counts.failed = run'.counts.failed
  pending : run.counts.pending = run'.counts.pending
  listed : run.listed = run'.listed

namespace Supervisor

variable {cases : List TestCase} {script : String → CaseEnd} {p : Performance}

/-- A run that has just been made is on its way. -/
theorem conforms_of_make {id project : String} {config : RunConfig} {createdAt : Instant} {run : Run}
    (script : String → CaseEnd)
    (hmade : Run.make { id, project, testCases := cases, config, counts := { total := 0 }
                        caseResults := [], createdAt } none = .ok run) :
    ({ run } : RunState).Conforms run script ∧ run.testCases = cases := by
  have ha := Run.aggregate_of_make hmade
  obtain ⟨-, e⟩ := Run.make_eq_ok hmade
  rw [e] at ha ⊢
  refine ⟨⟨rfl, rfl, ha, ?_, nofun, rfl⟩, rfl⟩
  intro entry he r hr
  obtain ⟨c, -, rfl⟩ := List.mem_map.mp he
  cases hr

theorem one_le_slots_of_made (h : p.Of cases script) :
    1 ≤ p.start.settings.slots p.run.config := by
  obtain ⟨id, project, config, createdAt, hconcurrency, hmade⟩ := h.made
  obtain ⟨-, e⟩ := Run.make_eq_ok hmade
  have hset : p.start.settings = p.settings := (frame_perform _ _).1.trans (settings_after _ _)
  have hworkers := h.workers
  rw [hset, e]
  show 1 ≤ min (config.concurrency : Int) p.settings.maxConcurrency
  omega

/-- **How a performance ends**: the run is complete, or left running where its limit is beyond the format;
    its counts are right and every result is that of its case. -/
theorem performance_ends (h : p.Of cases script) :
    (∃ run, p.states.getLast? = some run ∧ run.Aggregate ∧ run.testCases = cases ∧
      run.caseResults.Follow script ∧
      (run.status = .completed ∧ ¬ p.run.config.timeLimit.IsBeyond ∨
        run.status = .running ∧ p.run.config.timeLimit.IsBeyond)) ∧
    p.start.strides p.run.id p.future ≤ 3 * cases.length + 5 := by
  obtain ⟨id, project, config, createdAt, -, hmade⟩ := h.made
  obtain ⟨hconf, rfl⟩ := conforms_of_make script hmade
  have hs : p.start.Sound := sound_perform (sound_after (sound_new _ _ _) p.past) _
  have hst : p.start.state? p.run.id = some { run := p.run } := state?_of_accepts h.accepted
  have hslots := one_le_slots_of_made h
  have hsteers := steers_conforms script hslots
  obtain ⟨st, hlast, hst', hrest, -⟩ := hsteers.last hs hst hconf h.plays h.finished
  exact ⟨⟨st.run, hlast, hst'.aggregate, hst'.cases, hst'.results, st.status_of_atRest hst' hrest⟩,
    hsteers.strides_le hs hst hconf h.plays⟩

/-- **A complete run** holds for every case, in order, what its end brings. -/
theorem timeless_of_completed {run : Run} (ha : run.Aggregate) (hf : run.caseResults.Follow script)
    (hs : run.status = .completed) : run.caseResults.timeless script =
      (run.testCases.map (·.id)).map fun k => (k, some ((script k).result ⟨0⟩)) := by
  have hpending := ha.pending
  rw [ha.completed hs] at hpending
  rw [hf.timeless_eq (by omega), ha.keys]

/-- Complete runs of the same cases agree. -/
theorem agrees_of_completed {run run' : Run} (ha : run.Aggregate) (ha' : run'.Aggregate)
    (hf : run.caseResults.Follow script) (hf' : run'.caseResults.Follow script)
    (hc : run.testCases = cases) (hc' : run'.testCases = cases) (hs : run.status = .completed)
    (hs' : run'.status = .completed) : run.Agrees script run' := by
  have e : run.caseResults.timeless script = run'.caseResults.timeless script := by
    rw [timeless_of_completed ha hf hs, timeless_of_completed ha' hf' hs', hc, hc']
  have htally (verdict) : run.caseResults.tally verdict = run'.caseResults.tally verdict := by
    rw [← CaseResults.tally_timeless script, e, CaseResults.tally_timeless]
  exact
    { results := e
      passed := by rw [ha.passed, ha'.passed, htally]
      failed := by rw [ha.failed, ha'.failed, htally]
      pending := by rw [ha.pending, ha'.pending, htally]
      listed := by rw [Run.listed_eq, Run.listed_eq, hc, hc'] }

/-- **In whatever order the cases end and however many run at once**: two performances of the same cases
    end after so many changes at most, each complete exactly if there is a moment for its time limit; and
    where both are complete they agree. -/
theorem performances_agree (cases : List TestCase) (script : String → CaseEnd) (p p' : Performance)
    (h : p.Of cases script) (h' : p'.Of cases script) :
    ∃ run run', p.states.getLast? = some run ∧ p'.states.getLast? = some run' ∧
      (run.status = .completed ↔ ¬ p.run.config.timeLimit.IsBeyond) ∧
      (run'.status = .completed ↔ ¬ p'.run.config.timeLimit.IsBeyond) ∧
      (run.status = .completed → run'.status = .completed → run.Agrees script run') ∧
      p.start.strides p.run.id p.future ≤ 3 * cases.length + 5 := by
  obtain ⟨⟨run, hlast, ha, hc, hf, hs⟩, hstrides⟩ := performance_ends h
  obtain ⟨⟨run', hlast', ha', hc', hf', hs'⟩, -⟩ := performance_ends h'
  have completed_iff {run : Run} {limit : TimeLimit}
      (hs : run.status = .completed ∧ ¬ limit.IsBeyond ∨ run.status = .running ∧ limit.IsBeyond) :
      run.status = .completed ↔ ¬ limit.IsBeyond := by
    rcases hs with ⟨hs, hl⟩ | ⟨hs, hl⟩
    · exact ⟨fun _ => hl, fun _ => hs⟩
    · refine ⟨fun e => ?_, fun hl' => absurd hl hl'⟩
      rw [hs] at e
      cases e
  exact ⟨run, run', hlast, hlast', completed_iff hs, completed_iff hs',
    agrees_of_completed ha ha' hf hf' hc hc', hstrides⟩

end Supervisor

namespace Sample

/-- The first of two cases passes, and something breaks in the other. -/
def script (caseId : String) : CaseEnd :=
  if caseId = "c1" then .returns pass else .breaks "boom"

/-- The cases end one after the other. -/
def inTurn : Supervisor.Performance where
  settings := { retainedRuns := 1 }
  archive := archive fun _ => none
  now := ⟨0⟩
  past := []
  run := pair 1
  future :=
    [ .occur runId .launch, .occur runId .begin, .occur runId .openPool, .occur runId .fill,
      .occur runId (.handIn "c1" (.result pass)), .occur runId (.collect "c1"), .occur runId .fill,
      .occur runId (.handIn "c2" (.broke "boom")), .occur runId (.collect "c2"),
      .occur runId .complete, .occur runId .depart ]

/-- Both cases run at once, the second ends first, and saves fail. -/
def atOnce : Supervisor.Performance where
  settings := { retainedRuns := 0 }
  archive := archive diskFull
  now := ⟨0⟩
  past := [.clock ⟨5⟩]
  run := pair 2
  future :=
    [ .occur runId .launch, .occur runId .begin, .occur runId .openPool, .occur runId .fill,
      .clock ⟨9⟩, .occur runId (.handIn "c2" (.broke "boom")), .occur runId (.collect "c2"),
      .occur runId (.handIn "c1" (.result pass)), .occur runId (.collect "c1"),
      .occur runId .complete, .occur runId .depart ]

/-- There is no moment for the time limit. -/
def unlimited : Supervisor.Performance where
  settings := { retainedRuns := 1 }
  archive := archive fun _ => none
  now := ⟨0⟩
  past := []
  run := run (Number.tenTo 400)
  future := lost.tail

/-- The order in which the cases end does not show in the counts. -/
example : inTurn.states.getLast?.map (·.counts.passed) = some 1 ∧
    atOnce.states.getLast?.map (·.counts.passed) = some 1 := by decide +kernel

end Sample

namespace Supervisor

theorem of_inTurn : Sample.inTurn.Of [Sample.case, Sample.other] Sample.script where
  made := ⟨_, _, _, _, by decide, rfl⟩
  workers := by decide
  accepted := by decide +kernel
  plays := by decide +kernel
  finished := fun _ => rests_of_ended (by decide +kernel)

theorem of_atOnce : Sample.atOnce.Of [Sample.case, Sample.other] Sample.script where
  made := ⟨_, _, _, _, by decide, rfl⟩
  workers := by decide
  accepted := by decide +kernel
  plays := by decide +kernel
  finished := fun hh => absurd (isSome_of_holds hh) (by decide +kernel)

theorem of_unlimited : Sample.unlimited.Of [Sample.case] Sample.script where
  made := ⟨_, _, _, _, by decide, rfl⟩
  workers := by decide
  accepted := by decide +kernel
  plays := by decide +kernel
  finished := fun _ => rests_of_ended (by decide +kernel)

/-- Two cases, one after the other or both at once, agree; the moments that were noted differ. -/
theorem performances_agree_of_pair : ∃ run run',
    Sample.inTurn.states.getLast? = some run ∧ Sample.atOnce.states.getLast? = some run' ∧
      run.status = .completed ∧ run'.status = .completed ∧ run.Agrees Sample.script run' ∧
      run.caseResults ≠ run'.caseResults := by
  obtain ⟨run, run', hlast, hlast', hs, hs', hagree, -⟩ := performances_agree
    [Sample.case, Sample.other] Sample.script Sample.inTurn Sample.atOnce of_inTurn of_atOnce
  have hl : ¬ Sample.inTurn.run.config.timeLimit.IsBeyond := by
    unfold TimeLimit.IsBeyond
    decide +kernel
  have hl' : ¬ Sample.atOnce.run.config.timeLimit.IsBeyond := by
    unfold TimeLimit.IsBeyond
    decide +kernel
  have hnoted : (Sample.inTurn.states.getLast?.map (·.caseResults)) ≠
      Sample.atOnce.states.getLast?.map (·.caseResults) := by decide +kernel
  rw [hlast, hlast'] at hnoted
  have hs := hs.mpr hl
  have hs' := hs'.mpr hl'
  exact ⟨run, run', hlast, hlast', hs, hs', hagree hs hs', fun e => hnoted (congrArg some e)⟩

/-- A run with a time limit beyond the format is left running, though nobody disturbs it. -/
theorem left_running_of_unlimited : Sample.unlimited.Of [Sample.case] Sample.script ∧
    Sample.unlimited.states.getLast?.map (·.status) = some .running :=
  ⟨of_unlimited, by decide +kernel⟩

end Supervisor

end StepRunner
