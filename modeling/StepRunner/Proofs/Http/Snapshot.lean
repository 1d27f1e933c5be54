import StepRunner.Proofs.Http.Refusal

/-!
# A run as it is started and as it is shown

The answer to a request to start a run shows the run; a request to show it that comes next should be answered the
same, as long as nothing happens to the run in between. The first answer comes from memory, or else from the run as it
was made; the second from memory, or else from the store.

* `Supervisor.snapshot?_of_still`: where every save succeeds, what is known of a run to which nothing happens is the
  last state that it had in memory;
* `Service.started_then_shown`: whatever happens before the first answer, the two are the same exactly if the run is
  in memory then. It is, where runs at rest stay in memory and nothing has happened but to the run itself; it is not
  where the run has come to rest by then and none stays (`started_then_shown_empty`).
-/

namespace StepRunner

namespace Supervisor

variable {s : Supervisor} {id : String} {run : Run} {h : List Move}

/-! ## 1. What is known of a run to which nothing happens -/

/-- A run in memory to which nothing happens is known as it is, also once it has left memory. -/
theorem Mirrored.snapshot?_of_still (hm : s.Mirrored)
    (hk : ∀ run ∈ Move.registered h, s.archive.store.CanKeep run) (hsaved : s.AllSaved h)
    (hlimit : ∀ st, s.state? id = some st → st.Stranded → st.run.config.timeLimit.IsBeyond)
    (hr : s.run? id = some run) (hstill : ∀ o, Move.occur id o ∉ h) :
    (s.after h).snapshot? id = some run.toJson := by
  obtain ⟨st, hst, rfl⟩ := run?_eq_some.mp hr
  obtain ⟨last, hlast, hload, hmemory⟩ :=
    load_of_stay hm.sound (hm.separates hk) hsaved hlimit hst (hm.stored id st hst)
  obtain rfl := eq_of_mem_stay hm.sound hst hstill (List.mem_of_getLast? hlast)
  rcases hmemory with hr' | ⟨hn, -⟩
  · exact snapshot?_of_run? hr'
  · rw [snapshot?_of_run?_eq_none hn]
    exact Archive.snapshot?_of_load hload

/-- A run that has left memory is known as it is stored. -/
theorem Mirrored.snapshot?_of_none (hm : s.Mirrored)
    (hk : ∀ run ∈ Move.registered h, s.archive.store.CanKeep run) (hn : s.run? id = none)
    (hload : s.archive.store.load id = .ok (some run.toJson)) :
    (s.after h).snapshot? id = some run.toJson := by
  have hgone : ∀ run, s.run? id = some run → run.status.isTerminal = true := by
    intro run hr
    rw [hn] at hr
    cases hr
  obtain ⟨-, hj, hsame⟩ := over_after hm.sound (hm.separates hk) hgone (Archive.snapshot?_of_load hload)
  rw [snapshot?_of_run?_eq_none (hsame.elim (·.trans hn) fun e => e)]
  exact hj

/-- Where runs at rest stay in memory, so does a run to which alone anything happens. -/
theorem isSome_run?_of_retention (hr : 0 < s.retention) (hheld : (s.state? id).isSome = true) (os : List Occasion) :
    ((s.after (os.map (.occur id))).run? id).isSome = true := by
  obtain ⟨st, hst⟩ := Option.isSome_iff_exists.mp hheld
  obtain ⟨st', hst'⟩ := state?_of_retention hr hst os
  exact isSome_run? hst'

/-- **What is known of a run to which nothing happens**: the last state that it had in memory. If it has left memory
    then it had ended, unless it was running under a time limit beyond the format. -/
theorem snapshot?_of_still (settings : Settings) (archive : Archive) (now : Instant)
    (past h between : List Move) (hk : ∀ r ∈ Move.registered (past ++ h ++ between), archive.store.CanKeep r)
    (hsaved : (new settings archive now).AllSaved (past ++ h ++ between))
    (hheld : (((new settings archive now).after past).state? id).isSome = true)
    (hstill : ∀ o, Move.occur id o ∉ between) :
    let s := ((new settings archive now).after past).after h
    ∃ last : Run, (s.after between).snapshot? id = some last.toJson ∧
      (s.run? id = some last ∨ s.run? id = none ∧
        (last.status.isTerminal = true ∨ last.status = .running ∧ last.config.timeLimit.IsBeyond)) := by
  intro s
  obtain ⟨hsaved, hbetween⟩ := allSaved_append.mp hsaved
  obtain ⟨hpast, hh⟩ := allSaved_append.mp hsaved
  rw [after_append] at hbetween
  simp only [registered_append, List.mem_append] at hk
  -- the store has every run in memory as it is, at both moments
  have hm₁ : ((new settings archive now).after past).Mirrored :=
    (mirrored_new settings archive now).after (fun r hr => hk r (.inl (.inl hr))) hpast
  have hk₁ : ∀ r ∈ Move.registered h, ((new settings archive now).after past).archive.store.CanKeep r :=
    fun r hr => ((store_after _ past).2 r).mpr (hk r (.inl (.inr hr)))
  have hm₂ : s.Mirrored := hm₁.after hk₁ hh
  have hk₂ : ∀ r ∈ Move.registered between, s.archive.store.CanKeep r := fun r hr =>
    ((store_after _ h).2 r).mpr (((store_after _ past).2 r).mpr (hk r (.inr hr)))
  -- and a run that is stranded then has a time limit beyond the format
  have hlimit₁ : ∀ st, ((new settings archive now).after past).state? id = some st → st.Stranded →
      st.run.config.timeLimit.IsBeyond :=
    isBeyond_after (sound_new settings archive now) (unbroken_of_allSaved hpast) fun st hst => by
      rw [state?_new] at hst
      cases hst
  have hlimit₂ : ∀ st, s.state? id = some st → st.Stranded → st.run.config.timeLimit.IsBeyond :=
    isBeyond_after hm₁.sound (unbroken_of_allSaved hh) hlimit₁
  obtain ⟨st, hst⟩ := Option.isSome_iff_exists.mp hheld
  obtain ⟨last, -, hload, hmemory⟩ :=
    load_of_stay hm₁.sound (hm₁.separates hk₁) hh hlimit₁ hst (hm₁.stored id st hst)
  refine ⟨last, ?_, hmemory⟩
  rcases hmemory with hr | ⟨hn, -⟩
  · exact hm₂.snapshot?_of_still hk₂ hbetween hlimit₂ hr hstill
  · exact hm₂.snapshot?_of_none hk₂ hn hload

end Supervisor

namespace Http

/-- What an answer says of what was asked for. -/
def Answer.data? : Answer → Option Json
  | .json _ body => body.get? "data"
  | _ => none

/-- An answer says the same of a run as another, and of whether it has ended. -/
structure Answer.ShowsAs (shown posted : Answer) : Prop where
  data : shown.data? = posted.data?
  terminal : shown.terminal? = posted.terminal?

namespace Service

variable {s : Service} {r g : Request} {run : Run}

/-! ## 2. The two answers -/

/-- The answer that shows a run. -/
def shownAs (status : Nat) (run : Run) : Answer :=
  .json status (success run.toJson (.obj [("terminal", .bool run.status.isTerminal)]))

/-- A run is shown as it is known. -/
theorem showRun_of_snapshot? {id : String} (hj : s.supervisor.snapshot? id = some run.toJson) :
    s.showRun id = shownAs 200 run := by
  unfold showRun
  rw [hj]
  dsimp only
  rw [ofSnapshot_toJson]
  rfl

/-- A run that is answered to be started was in memory once its dispatch was asked for. It is shown as it is, or else
    as it was made. -/
theorem started_of_accepted {h : List Move} (hp : run.status = .pending)
    (hb : ¬ s.supervisor.Breaks (.register run)) (haccepted : (s.started run h).1.status = 202) :
    let s' := (s.supervisor.after (Supervisor.launching run)).after h
    ((s.supervisor.after (Supervisor.launching run)).state? run.id).isSome = true ∧
      (s.started run h).2.supervisor = s' ∧ (s.started run h).1 = shownAs 202 ((s'.run? run.id).getD run) := by
  cases hl : (s.supervisor.launch run).1 with
  | error refusal =>
      unfold started at haccepted
      rw [hl] at haccepted
      have hstatus := (StartFault.ofRefusal refusal).status_answer
      have haccepted : (StartFault.ofRefusal refusal).answer.status = 202 := haccepted
      omega
  | ok u =>
      obtain ⟨hsame, st, hst⟩ := Supervisor.launch_eq_after hp hb hl
      refine ⟨by rw [hst, Option.isSome_some], ?_, ?_⟩
      · rw [started, hl, hsame]
      · rw [started, hl, hsame]
        rfl

/-- How the answer to a request to start a run, with the service that it leaves, and the answer to a request to show
    the run go together, if a history happens before the first. They are the same exactly if the run is in memory when
    the first is given. It is, if runs at rest stay in memory and nothing has happened but to itself. Else the first
    shows the run as it was made, and the second as it was when it left memory. -/
structure ShownAfter (settings : Settings) (run : Run) (h : List Move) (posted : Answer × Service) (shown : Answer) :
    Prop where
  status : shown.status = 200
  same : shown.ShowsAs posted.1 ↔ (posted.2.supervisor.run? run.id).isSome = true
  stays : 1 ≤ settings.retainedRuns → (∃ os : List Occasion, h = os.map (.occur run.id)) →
    (posted.2.supervisor.run? run.id).isSome = true
  left : posted.2.supervisor.run? run.id = none →
    posted.1.data? = some run.toJson ∧ posted.1.terminal? = some false ∧
      ∃ last : Run, shown.data? = some last.toJson ∧ shown.terminal? = some last.status.isTerminal ∧
        (last.status.isTerminal = true ∨ last.status = .running ∧ last.config.timeLimit.IsBeyond)

/-- Answers that show the run in memory, or else as it was made, and the last state that it had there. -/
theorem shownAfter_of_known {settings : Settings} {h : List Move} {posted : Answer × Service} {shown : Answer}
    {last : Run} (hp : run.status = .pending)
    (hposted : posted.1 = shownAs 202 ((posted.2.supervisor.run? run.id).getD run)) (hshown : shown = shownAs 200 last)
    (hmemory : posted.2.supervisor.run? run.id = some last ∨ posted.2.supervisor.run? run.id = none ∧
      (last.status.isTerminal = true ∨ last.status = .running ∧ last.config.timeLimit.IsBeyond))
    (hstays : 1 ≤ settings.retainedRuns → (∃ os : List Occasion, h = os.map (.occur run.id)) →
      (posted.2.supervisor.run? run.id).isSome = true) : ShownAfter settings run h posted shown := by
  subst hshown
  rcases hmemory with hr | ⟨hn, hend⟩
  · rw [hr, Option.getD_some] at hposted
    have hin : (posted.2.supervisor.run? run.id).isSome = true := by rw [hr, Option.isSome_some]
    have hshows : (shownAs 200 last).ShowsAs posted.1 := by
      rw [hposted]
      exact ⟨rfl, rfl⟩
    refine { status := rfl, same := iff_of_true hshows hin, stays := hstays, left := fun hn => ?_ }
    rw [hr] at hn
    cases hn
  · rw [hn, Option.getD_none] at hposted
    have hnot : ¬ (posted.2.supervisor.run? run.id).isSome = true := by
      rw [hn]
      nofun
    -- the run as it was made is pending, and the one that left memory is not
    have hdiffer : ¬ (shownAs 200 last).ShowsAs posted.1 := by
      intro hshows
      have hdata := hshows.data
      rw [hposted] at hdata
      have hstatus : last.status = .pending := (Run.status_of_toJson_eq (Option.some.inj hdata)).trans hp
      rw [hstatus] at hend
      obtain hend | ⟨hend, -⟩ := hend
      · cases hend
      · cases hend
    have hpending : (shownAs 202 run).terminal? = some false := by
      show some run.status.isTerminal = _
      rw [hp]
      rfl
    refine { status := rfl, same := iff_of_false hdiffer hnot, stays := hstays, left := fun _ => ?_ }
    rw [hposted]
    exact ⟨rfl, hpending, last, rfl, rfl, hend⟩

/-- **A run as it is started and as it is shown**, where every save succeeds. A request has a run started, anything
    happens before it is answered, and anything but to this run before the run is shown. Where nothing comes between,
    what happens before the answer is what goes on with the run by itself. -/
theorem started_then_shown (settings : Settings) (archive : Archive) (now : Instant)
    (past h between : List Move) (hs : s.supervisor = (Supervisor.new settings archive now).after past)
    (hpost : r.destination = .found .runs ∧ r.method = "POST") (hrun : s.runOf r = .ok run)
    (hget : g.destination = .found (.run run.id) ∧ g.method = "GET")
    (hk : ∀ x ∈ Move.registered (past ++ Supervisor.launching run ++ h ++ between), archive.store.CanKeep x)
    (hsaved : (Supervisor.new settings archive now).AllSaved (past ++ Supervisor.launching run ++ h ++ between))
    (hstill : ∀ o, Move.occur run.id o ∉ between) (haccepted : (s.started run h).1.status = 202) :
    let posted := s.started run h
    ShownAfter settings run h posted
        ({ posted.2 with supervisor := posted.2.supervisor.after between }.answer g).1 ∧
      s.answer r = s.started run (Supervisor.course.map (.occur run.id)) := by
  intro posted
  have hp := pending_of_runOf hrun
  have hb : ¬ s.supervisor.Breaks (.register run) := by
    obtain ⟨hsaved, -⟩ := Supervisor.allSaved_append.mp hsaved
    obtain ⟨hsaved, -⟩ := Supervisor.allSaved_append.mp hsaved
    rw [hs]
    exact Supervisor.not_breaks_of_saves (Supervisor.allSaved_append.mp hsaved).2.1
  obtain ⟨hheld, hsupervisor, hposted⟩ := started_of_accepted hp hb haccepted
  have hstart : s.supervisor.after (Supervisor.launching run) =
      (Supervisor.new settings archive now).after (past ++ Supervisor.launching run) := by
    rw [Supervisor.after_append, ← hs]
  obtain ⟨last, hj, hmemory⟩ := Supervisor.snapshot?_of_still settings archive now
    (past ++ Supervisor.launching run) h between hk hsaved (hstart ▸ hheld) hstill
  rw [← hstart, ← hsupervisor] at hj hmemory
  rw [← hsupervisor] at hposted
  have hanswer := answer_eq_startRun (s := s) hpost
  rw [startRun_of_ok hrun] at hanswer
  have hshown : ({ posted.2 with supervisor := posted.2.supervisor.after between }.answer g).1 =
      shownAs 200 last := by
    rw [answer_of_found hget.1 hget.2]
    exact showRun_of_snapshot? hj
  refine ⟨shownAfter_of_known hp hposted hshown hmemory ?_, hanswer⟩
  rintro hretained ⟨os, rfl⟩
  rw [hsupervisor]
  refine Supervisor.isSome_run?_of_retention ?_ hheld os
  rw [hstart, Supervisor.retention, Supervisor.settings_after]
  show 0 < settings.retainedRuns.toNat
  omega

/-- A new service that keeps so many runs at rest in memory. -/
def serviceKeeping (retainedRuns : Int) : Service where
  supervisor := .new { retainedRuns } { store := .memory [] } ⟨0⟩

/-- A request to show the first run of the empty suite. -/
def emptyRunRequest : Request := { method := "GET", target := "/api/runs/" ++ emptyRun.id }

/-- Everything that goes on with the run of the empty suite by itself, from its start. -/
def emptyCourse : List Move := Supervisor.launching emptyRun ++ Supervisor.course.map (.occur emptyRun.id)

/-- **The run of the empty suite** is complete at once. If no run at rest stays in memory, the answer to the request
    that had it started shows it as pending still; if one does, it shows it as it is. -/
theorem started_then_shown_empty :
    let posted (n : Int) := (serviceKeeping n).answer emptySuite
    let shown (n : Int) := ((posted n).2.answer emptyRunRequest).1
    (∀ n ∈ [0, 1], (posted n).1.status = 202 ∧ (shown n).status = 200) ∧
      (posted 0).1.terminal? = some false ∧ ¬ (shown 0).ShowsAs (posted 0).1 ∧ (shown 1).ShowsAs (posted 1).1 := by
  intro posted shown
  have hsaved : ∀ n ∈ [0, 1], (serviceKeeping n).supervisor.AllSaved (emptyCourse ++ []) := by decide +kernel
  have hleft : ((serviceKeeping 0).supervisor.after emptyCourse).run? emptyRun.id = none :=
    Option.isNone_iff_eq_none.mp (by decide +kernel)
  have hget : emptyRunRequest.destination = .found (.run emptyRun.id) := by decide +kernel
  have hboth (n : Int) (hn : n ∈ [0, 1]) :
      ShownAfter { retainedRuns := n } emptyRun (Supervisor.course.map (.occur emptyRun.id)) (posted n) (shown n) ∧
        (posted n).1.status = 202 ∧
        (posted n).2.supervisor = (serviceKeeping n).supervisor.after emptyCourse := by
    have hb := Supervisor.not_breaks_of_saves (hsaved n hn).1
    have hrun : (serviceKeeping n).runOf emptySuite = .ok emptyRun := runOf_emptySuite _ rfl rfl
    have haccepted :
        ((serviceKeeping n).started emptyRun (Supervisor.course.map (.occur emptyRun.id))).1.status = 202 := by
      have hl := congrArg Prod.fst (Supervisor.launch_of_accepts rfl hb)
      unfold started
      rw [hl]
      rfl
    obtain ⟨hshown, hanswer⟩ := @started_then_shown (serviceKeeping n) emptySuite emptyRunRequest emptyRun
      { retainedRuns := n } { store := .memory [] } ⟨0⟩ [] (Supervisor.course.map (.occur emptyRun.id)) [] rfl
      ⟨startRequest_posts.1, rfl⟩ hrun ⟨hget, rfl⟩ (fun _ _ => trivial) (hsaved n hn) nofun haccepted
    obtain ⟨-, hsupervisor, -⟩ := started_of_accepted (pending_of_runOf hrun) hb haccepted
    rw [← hanswer] at hshown haccepted hsupervisor
    rw [← Supervisor.after_append] at hsupervisor
    exact ⟨hshown, haccepted, hsupervisor⟩
  obtain ⟨hshown₀, -, hsupervisor⟩ := hboth 0 (by decide)
  obtain ⟨hshown₁, -⟩ := hboth 1 (by decide)
  have hgone : (posted 0).2.supervisor.run? emptyRun.id = none := by rw [hsupervisor, hleft]
  refine ⟨fun n hn => ⟨(hboth n hn).2.1, (hboth n hn).1.status⟩, (hshown₀.left hgone).2.1, ?_, ?_⟩
  · intro hshows
    have hin := hshown₀.same.mp hshows
    rw [hgone] at hin
    cases hin
  · exact hshown₁.same.mpr (hshown₁.stays (by decide) ⟨_, rfl⟩)

end Service

end Http

end StepRunner
