import Mathlib.Data.List.Chain
import StepRunner.Proofs.Run

/-!
# What the observers of a run are owed

From the states of a run, one after the other, it is clear what somebody has to be told who looks at
them: that it was started, the results of its cases in the order in which they came, and its end.

* `Run.recordings`: the results that came, in order;
* `Run.told`: what is owed for the states that follow one another;
* `Run.stream`: the events of a stream that is opened on a run;
* `Run.told_cons`: what is owed for one more change is its news, and what is owed from then on.
-/

namespace StepRunner.Run

variable {run run' : Run} {later more : List Run} {now : Instant} {news : List Happening}

/-! ## 1. What is owed -/

/-- The results that a later state of a run has and an earlier one has not. -/
def newResults (run run' : Run) : List (TestCase × CaseResult) :=
  run'.testCases.filterMap fun c =>
    if (run.caseResults.result? c.id).isNone then (run'.caseResults.result? c.id).map (c, ·)
    else none

/-- The results that came, in the order in which they did. -/
def recordings : List Run → List (TestCase × CaseResult)
  | run :: run' :: later => run.newResults run' ++ recordings (run' :: later)
  | _ => []

/-- For every result how far the run is then, counted from `done` on, and the case. -/
def resultNews (done total : Int) : List (TestCase × CaseResult) → List Happening
  | [] => []
  | (c, r) :: rest =>
    .progress (.int (done + 1)) (.int total) :: .caseCompleted c.id c.title (some r) ::
      resultNews (done + 1) total rest

/-- A pending run that is running later was started. -/
def startNews (run : Run) (later : List Run) : List Happening :=
  if run.status = .pending then
    ((later.find? (·.status = .running)).map fun run => .started run.toJson).toList
  else []

/-- A run that had not ended and has ended at last. -/
def endNews (run : Run) (later : List Run) : List Happening :=
  if run.isOpen then ((later.getLast?.filter (!·.isOpen)).map ending).toList else []

/-- What the observers of a run are owed for the states that follow. -/
def told (run : Run) (later : List Run) : List Happening :=
  startNews run later ++
    resultNews run.counts.completed run.counts.total (recordings (run :: later)) ++
    endNews run later

/-- The events of a stream that is opened on a run. -/
def stream (run : Run) (later : List Run) : List Event :=
  Event.progressOf run :: (run.told later).map (⟨run.id, ·⟩)

theorem told_nil (run : Run) : run.told [] = [] := by
  unfold told startNews endNews
  simp [recordings, resultNews]

/-! ## 2. Results -/

theorem newResults_of_eq (h : run'.caseResults = run.caseResults) : run.newResults run' = [] := by
  unfold newResults
  rw [List.filterMap_eq_nil_iff]
  intro c _
  rw [h]
  split
  · next hn => rw [Option.isNone_iff_eq_none.mp hn, Option.map_none]
  · rfl

/-- The one new result after a result was recorded is that one. -/
theorem newResults_recorded (hd : (run.testCases.map (·.id)).Nodup) {c : TestCase} {r : CaseResult}
    (hc : c ∈ run.testCases) (ha : run.awaits c.id = true) :
    run.newResults (run.recorded c.id r) = [(c, r)] := by
  have hself : (if (run.caseResults.result? c.id).isNone then
      ((run.recorded c.id r).caseResults.result? c.id).map (c, ·) else none) = some (c, r) := by
    rw [isNone_of_awaits ha, recorded, CaseResults.result?_put]
    simp
  have hother (e : TestCase) (he : e.id ≠ c.id) : (if (run.caseResults.result? e.id).isNone then
      ((run.recorded c.id r).caseResults.result? e.id).map (e, ·) else none) = none := by
    rw [recorded, CaseResults.result?_put, if_neg he]
    split
    · next hn => rw [Option.isNone_iff_eq_none.mp hn, Option.map_none]
    · rfl
  show (run.testCases.filterMap fun e => if (run.caseResults.result? e.id).isNone then
    ((run.recorded c.id r).caseResults.result? e.id).map (e, ·) else none) = [(c, r)]
  generalize run.testCases = cases at hd hc
  induction cases with
  | nil => cases hc
  | cons e rest ih =>
      rw [List.map_cons, List.nodup_cons] at hd
      rw [List.filterMap_cons]
      rcases List.mem_cons.mp hc with rfl | hc
      · rw [hself]
        refine congrArg (List.cons _) (List.filterMap_eq_nil_iff.mpr fun e he => hother e fun hid => ?_)
        exact hd.1 (hid ▸ List.mem_map_of_mem he)
      · have hne : e.id ≠ c.id := fun hid => hd.1 (hid ▸ List.mem_map_of_mem hc)
        rw [hother e hne]
        exact ih hd.2 hc

theorem mem_newResults {x : TestCase × CaseResult} (h : x ∈ run.newResults run') :
    run.caseResults.result? x.1.id = none ∧ run'.caseResults.result? x.1.id = some x.2 := by
  obtain ⟨c, -, hc⟩ := List.mem_filterMap.mp h
  split at hc
  · next hn =>
      obtain ⟨r, hr, rfl⟩ := Option.map_eq_some_iff.mp hc
      exact ⟨Option.isNone_iff_eq_none.mp hn, hr⟩
  · cases hc

/-- No case stands twice among the new results. -/
theorem nodup_newResults (hd : (run'.testCases.map (·.id)).Nodup) :
    ((run.newResults run').map (·.1.id)).Nodup := by
  unfold newResults
  generalize run'.testCases = cases at hd
  induction cases with
  | nil => exact .nil
  | cons c rest ih =>
      rw [List.map_cons, List.nodup_cons] at hd
      rw [List.filterMap_cons]
      split
      · exact ih hd.2
      · next x hx =>
          have hxc : x.1 = c := by
            split at hx
            · obtain ⟨r, -, rfl⟩ := Option.map_eq_some_iff.mp hx
              rfl
            · cases hx
          rw [List.map_cons, List.nodup_cons, hxc]
          refine ⟨fun hm => hd.1 ?_, ih hd.2⟩
          obtain ⟨y, hy, hid⟩ := List.mem_map.mp hm
          obtain ⟨e, he, hye⟩ := List.mem_filterMap.mp hy
          have hyc : y.1 = e := by
            split at hye
            · obtain ⟨r, -, rfl⟩ := Option.map_eq_some_iff.mp hye
              rfl
            · cases hye
          exact hid ▸ hyc ▸ List.mem_map_of_mem he

/-! ## 3. One change after the other -/

theorem Becomes.of_terminal (h : run.Becomes run') (ht : run.status.isTerminal = true) : run' = run := by
  obtain ⟨now, news, h⟩ := h
  exact (h.of_terminal ht).1

/-- The results that come are of cases without one. -/
theorem isNone_of_recordings (hch : (run :: later).IsChain Becomes) {x : TestCase × CaseResult}
    (hx : x ∈ recordings (run :: later)) : run.caseResults.result? x.1.id = none := by
  induction later generalizing run with
  | nil => cases hx
  | cons run' later ih =>
      obtain ⟨⟨now, news, ht⟩, hch⟩ := List.isChain_cons_cons.mp hch
      rcases List.mem_append.mp hx with hx | hx
      · exact (mem_newResults hx).1
      · cases hr : run.caseResults.result? x.1.id with
        | none => rfl
        | some r =>
            have hn := ih hch hx
            rw [ht.result hr] at hn
            cases hn

/-- **No case has two results.** -/
theorem nodup_recordings (hch : (run :: later).IsChain Becomes)
    (hd : (run.testCases.map (·.id)).Nodup) :
    ((recordings (run :: later)).map (·.1.id)).Nodup := by
  induction later generalizing run with
  | nil => exact .nil
  | cons run' later ih =>
      obtain ⟨⟨now, news, ht⟩, hch⟩ := List.isChain_cons_cons.mp hch
      rw [← ht.testCases_eq] at hd
      rw [recordings, List.map_append, List.nodup_append]
      refine ⟨nodup_newResults hd, ih hch hd, ?_⟩
      intro k hk k' hk' hkk
      obtain ⟨x, hx, rfl⟩ := List.mem_map.mp hk
      obtain ⟨y, hy, rfl⟩ := List.mem_map.mp hk'
      have hsome := (mem_newResults hx).2
      have hnone := isNone_of_recordings hch hy
      rw [hkk, hnone] at hsome
      cases hsome

/-- A run that has ended stays as it is. -/
theorem eq_of_terminal (hch : (run :: later).IsChain Becomes) (ht : run.status.isTerminal = true) :
    ∀ x ∈ later, x = run := by
  induction later generalizing run with
  | nil => exact List.forall_mem_nil _
  | cons run' later ih =>
      obtain ⟨hb, hch⟩ := List.isChain_cons_cons.mp hch
      have e := hb.of_terminal ht
      rw [e] at hch
      intro x hx
      rcases List.mem_cons.mp hx with rfl | hx
      · exact e
      · exact ih hch ht x hx

/-- Where a run ends sooner or later, it has ended at last. -/
theorem exists_isTerminal_cons (ht : run.Turns now run' news) :
    (∃ x ∈ run :: run' :: later, x.status.isTerminal = true) ↔
      ∃ x ∈ run' :: later, x.status.isTerminal = true := by
  constructor
  · rintro ⟨x, hx, hxt⟩
    rcases List.mem_cons.mp hx with rfl | hx
    · exact ⟨run', List.mem_cons_self, (ht.of_terminal hxt).1 ▸ hxt⟩
    · exact ⟨x, hx, hxt⟩
  · rintro ⟨x, hx, hxt⟩
    exact ⟨x, List.mem_cons_of_mem _ hx, hxt⟩

theorem recordings_of_eq (h : ∀ x ∈ later, x = run) : recordings (run :: later) = [] := by
  induction later generalizing run with
  | nil => rfl
  | cons run' later ih =>
      obtain rfl := h run' List.mem_cons_self
      rw [recordings, newResults_of_eq rfl, List.nil_append]
      exact ih fun x hx => h x (List.mem_cons_of_mem _ hx)

/-- Of a run that has ended there is nothing more to tell. -/
theorem told_of_terminal (hch : (run :: later).IsChain Becomes)
    (ht : run.status.isTerminal = true) : run.told later = [] := by
  have hne : run.status ≠ .pending := fun e => by
    rw [e] at ht
    cases ht
  have ho : run.isOpen = false := not_isOpen_iff.mpr ht
  unfold told startNews endNews
  rw [if_neg hne, recordings_of_eq (eq_of_terminal hch ht), if_neg (by simp [ho]), resultNews]
  rfl

theorem getLast?_cons_of_eq (h : ∀ x ∈ later, x = run) : (run :: later).getLast? = some run := by
  rw [List.getLast?_cons]
  cases hl : later.getLast? with
  | none => rfl
  | some x => rw [h x (List.mem_of_getLast? hl), Option.getD_some]

/-- The end of an open run is told once, also where the run was open for a while. -/
theorem endNews_cons (ho : run.isOpen = true) (ho' : run'.isOpen = true) :
    endNews run (run' :: later) = endNews run' later := by
  unfold endNews
  rw [if_pos ho, if_pos ho', List.getLast?_cons]
  cases later.getLast? with
  | none => simp [ho']
  | some x => rfl

/-- Of a run that ends there is only the end to tell. -/
theorem told_of_ends (hch : (run' :: later).IsChain Becomes) (ho : run.isOpen = true)
    (he : run'.status.isTerminal = true) (hr : run'.caseResults = run.caseResults) :
    run.told (run' :: later) = [run'.ending] := by
  have heq := eq_of_terminal hch he
  have hfind : (run' :: later).find? (·.status = .running) = none := by
    rw [List.find?_eq_none]
    intro x hx hs
    have hx : x = run' := by
      rcases List.mem_cons.mp hx with hx | hx
      · exact hx
      · exact heq x hx
    rw [hx, decide_eq_true_eq] at hs
    rw [hs] at he
    cases he
  have hstart : startNews run (run' :: later) = [] := by
    unfold startNews
    rw [hfind]
    split <;> rfl
  have hrec : recordings (run :: run' :: later) = [] := by
    rw [recordings, newResults_of_eq hr, recordings_of_eq heq, List.nil_append]
  have hend : endNews run (run' :: later) = [run'.ending] := by
    unfold endNews
    rw [if_pos ho, getLast?_cons_of_eq heq, Option.filter_some, not_isOpen_iff.mpr he]
    rfl
  unfold told
  rw [hstart, hrec, hend, resultNews, List.nil_append, List.nil_append]

/-- Where nothing changes, nothing is owed for it. -/
theorem told_of_stays : run.told (run :: later) = run.told later := by
  have hstart : startNews run (run :: later) = startNews run later := by
    unfold startNews
    split
    · next hs => rw [List.find?_cons_of_neg (by simp [hs])]
    · rfl
  have hend : endNews run (run :: later) = endNews run later := by
    cases ho : run.isOpen with
    | true => exact endNews_cons ho ho
    | false =>
        unfold endNews
        rw [if_neg (by simp [ho]), if_neg (by simp [ho])]
  unfold told
  rw [hstart, hend, recordings, newResults_of_eq rfl, List.nil_append]

/-- **What is owed for one more change** is its news, and what is owed from then on. -/
theorem told_cons (ht : run.Turns now run' news) (hch : (run' :: later).IsChain Becomes)
    (hd : (run.testCases.map (·.id)).Nodup) : run.told (run' :: later) = news ++ run'.told later := by
  cases ht with
  | stays => exact told_of_stays
  | starts hs =>
      have ho := isOpen_of_pending hs
      have hstart : startNews run (run.started now :: later) = [.started (run.started now).toJson] := by
        unfold startNews
        rw [if_pos hs, List.find?_cons_of_pos (by rfl)]
        rfl
      have hstart' : startNews (run.started now) later = [] := if_neg nofun
      have hnew : run.newResults (run.started now) = [] := newResults_of_eq rfl
      unfold told
      rw [hstart, hstart', endNews_cons ho rfl, recordings, hnew]
      rfl
  | records c r hc ha =>
      have hs := running_of_awaits ha
      have ho := isOpen_of_running hs
      have hs' : (run.recorded c.id r).status = .running := hs
      have ho' : (run.recorded c.id r).isOpen = true := ho
      have hstart : startNews run (run.recorded c.id r :: later) = [] := if_neg (by simp [hs])
      have hstart' : startNews (run.recorded c.id r) later = [] := if_neg (by simp [hs'])
      have hdone : (run.recorded c.id r).counts.completed = run.counts.completed + 1 :=
        completed_record _ _
      have htotal : (run.recorded c.id r).counts.total = run.counts.total := total_record _ _
      unfold told
      rw [hstart, hstart', endNews_cons ho ho', recordings, newResults_recorded hd hc ha,
        List.singleton_append, resultNews, hdone, htotal]
      rfl
  | completes hs ha =>
      have ho := isOpen_of_running hs
      rw [told_of_ends hch ho rfl rfl, told_of_terminal hch rfl]
      rfl
  | fails message hs =>
      have ho := isOpen_of_running hs
      rw [told_of_ends hch ho rfl rfl, told_of_terminal hch rfl]
      rfl
  | cancels ho =>
      rw [told_of_ends hch ho rfl rfl, told_of_terminal hch rfl]
      rfl

end StepRunner.Run
