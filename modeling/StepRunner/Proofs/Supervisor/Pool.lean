import StepRunner.Proofs.Run
import StepRunner.Supervisor.Basic

/-!
# The cases in a pool

A case of a run under way waits, is in flight, or has ended and has not been looked at. Cases move from
one place to the next and leave the pool when they are looked at; none is lost on the way.

* `Pool.Fits`: the pool holds cases of the run, among them one for every case that the run awaits. The
  pool has it when it opens (`fits_new`) and keeps it in every move.
-/

namespace StepRunner.Pool

/-! ## 1. The cases of a pool -/

/-- The cases of a pool, wherever they are in it. -/
def cases (p : Pool) : List TestCase := p.waiting ++ p.inFlight ++ p.finished.map (·.1)

variable {p : Pool} {run run' : Run} {c : TestCase} {x : HandedIn} {caseId : String}

theorem mem_cases : c ∈ p.cases ↔ c ∈ p.waiting ∨ c ∈ p.inFlight ∨ ∃ x, (c, x) ∈ p.finished := by
  simp [cases]

theorem mem_cases_filled : c ∈ p.filled.cases ↔ c ∈ p.cases := by
  have e : c ∈ p.waiting ↔ c ∈ p.waiting.take p.free ∨ c ∈ p.waiting.drop p.free := by
    rw [← List.mem_append, List.take_append_drop]
  rw [mem_cases, mem_cases, e]
  simp only [filled, entering, List.mem_append]
  tauto

theorem mem_cases_of_withEnd {e : TestCase} (he : e ∈ p.inFlight)
    (h : c ∈ (p.withEnd e x).cases) : c ∈ p.cases := by
  rw [mem_cases] at h ⊢
  simp only [withEnd, List.mem_filter, List.mem_append, List.mem_singleton, Prod.mk.injEq] at h
  rcases h with h | h | ⟨y, h | ⟨rfl, -⟩⟩
  · exact .inl h
  · exact .inr (.inl h.1)
  · exact .inr (.inr ⟨y, h⟩)
  · exact .inr (.inl he)

/-- A case that ends stays in the pool under its id. -/
theorem mem_cases_withEnd {e : TestCase} (h : c ∈ p.cases) :
    ∃ d ∈ (p.withEnd e x).cases, d.id = c.id := by
  by_cases hid : c.id = e.id
  · refine ⟨e, ?_, hid.symm⟩
    rw [mem_cases]
    exact .inr (.inr ⟨x, by simp [withEnd]⟩)
  · refine ⟨c, ?_, rfl⟩
    rw [mem_cases] at h ⊢
    rcases h with h | h | ⟨y, h⟩
    · exact .inl h
    · exact .inr (.inl (by simp [withEnd, h, hid]))
    · exact .inr (.inr ⟨y, by simp [withEnd, h]⟩)

theorem mem_cases_of_without (h : c ∈ (p.without caseId).cases) : c ∈ p.cases := by
  rw [mem_cases] at h ⊢
  exact h.imp id (.imp id fun ⟨y, hy⟩ => ⟨y, List.mem_of_mem_eraseP hy⟩)

/-- A case of another id stays in the pool. -/
theorem mem_cases_without (h : c ∈ p.cases) (hid : c.id ≠ caseId) :
    c ∈ (p.without caseId).cases := by
  rw [mem_cases] at h ⊢
  exact h.imp id (.imp id fun ⟨y, hy⟩ => ⟨y, (List.mem_eraseP_of_neg (by simpa using hid)).mpr hy⟩)

theorem not_mem_of_isEmpty (h : p.isEmpty = true) : c ∉ p.cases := by
  simp only [isEmpty, isQuiet, Bool.and_eq_true, List.isEmpty_iff] at h
  simp [cases, h.1, h.2.1, h.2.2]

/-! ## 2. The pool of a run -/

/-- The pool holds cases of the run, among them every case that the run awaits. -/
structure Fits (p : Pool) (run : Run) : Prop where
  cases : ∀ c ∈ p.cases, c ∈ run.testCases
  awaited : ∀ c ∈ run.testCases, run.awaits c.id = true → ∃ e ∈ p.cases, e.id = c.id

theorem fits_new (slots : Nat) (deadline : Instant) :
    Fits { slots, waiting := run.testCases, deadline } run :=
  ⟨fun c hc => by simpa [mem_cases] using hc, fun c hc _ => ⟨c, by simpa [mem_cases] using hc, rfl⟩⟩

theorem Fits.filled (h : p.Fits run) : p.filled.Fits run := by
  refine ⟨fun c hc => h.cases c (mem_cases_filled.mp hc), fun c hc ha => ?_⟩
  obtain ⟨e, he, hid⟩ := h.awaited c hc ha
  exact ⟨e, mem_cases_filled.mpr he, hid⟩

theorem Fits.withEnd (h : p.Fits run) (hc : c ∈ p.inFlight) : (p.withEnd c x).Fits run := by
  refine ⟨fun e he => h.cases e (mem_cases_of_withEnd hc he), fun e he ha => ?_⟩
  obtain ⟨d, hd, hid⟩ := h.awaited e he ha
  obtain ⟨d', hd', hid'⟩ := mem_cases_withEnd (e := c) (x := x) hd
  exact ⟨d', hd', hid'.trans hid⟩

theorem Fits.without (h : p.Fits run) (ht : run'.testCases = run.testCases)
    (ha : ∀ k, run'.awaits k = true → run.awaits k = true ∧ k ≠ caseId) :
    (p.without caseId).Fits run' := by
  refine ⟨fun e he => ht ▸ h.cases e (mem_cases_of_without he), fun e he hk => ?_⟩
  obtain ⟨hk, hne⟩ := ha e.id hk
  obtain ⟨d, hd, hid⟩ := h.awaited e (ht ▸ he) hk
  exact ⟨d, mem_cases_without hd (hid.trans_ne hne), hid⟩

/-- A run that has ended awaits nothing. -/
theorem Fits.of_terminal (h : p.Fits run) (ht : run'.testCases = run.testCases)
    (hs : run'.status.isTerminal = true) : p.Fits run' := by
  refine ⟨fun e he => ht ▸ h.cases e he, fun e _ ha => ?_⟩
  rw [Run.running_of_awaits ha] at hs
  cases hs

end StepRunner.Pool
