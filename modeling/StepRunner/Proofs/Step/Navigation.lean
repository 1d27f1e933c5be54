import StepRunner.Proofs.Step.Address
import StepRunner.Proofs.Step.Faults
import StepRunner.Proofs.Text.Occurrence

/-!
# Where a sentence with a URL leads

The parser takes a URL with its scheme in any case, the executor only one in small letters as it is. Any
other scheme counts as part of an address without one, and is put behind a second scheme (`visited`).

* `resolve_of_url`: the address that a URL stands for, whatever the base;
* `visits_of_navigates`: a navigation goes to its address and to no other;
* `does_open_url`: the sentence that opens a URL, from its text to the calls of the page.
-/

namespace StepRunner

open Text Step

variable {σ : Type} {e : Executor} {xs : List Exchange} {r : Except StepFault Unit} {u : List Char}

/-- The text starts with a scheme in small letters. -/
def HasPlainScheme (u : List Char) : Prop := "http://".toList <+: u ∨ "https://".toList <+: u

instance (u : List Char) : Decidable (HasPlainScheme u) := inferInstanceAs (Decidable (_ ∨ _))

/-- Where a URL leads. -/
def visited (u : List Char) : List Char := if HasPlainScheme u then u else "https://".toList ++ u

theorem visited_eq_self_iff : visited u = u ↔ HasPlainScheme u := by
  unfold visited
  split
  · next h => exact iff_of_true rfl h
  · next h =>
      refine iff_of_false (fun e => ?_) h
      have hlen := congrArg List.length e
      rw [List.length_append] at hlen
      have hscheme : "https://".toList.length = 8 := rfl
      omega

/-- A text without blanks is trimmed. -/
theorem trim_eq_self {cs : List Char} (h : ∀ c ∈ cs, isBlank c = false) : trim cs = cs :=
  trim_eq_self_of_ends (fun c hc => h c (List.mem_of_mem_head? hc)) fun c hc => h c (List.mem_of_getLast? hc)

namespace Executor

/-- **What a URL stands for**, whatever the base. -/
theorem resolve_of_url (e : Executor) (hu : u ∈ urls) :
    e.resolve (String.ofList u) = .ok (String.ofList (visited u)) := by
  have htext : u ∈ Shape.url.texts := hu
  have hslash : u.head? ≠ some '/' := by
    intro h
    obtain ⟨t, rfl⟩ := List.head?_eq_some_iff.mp h
    have hhead : some '/' = some ':' := Shape.head?_of_texts htext (List.prefix_refl _)
    cases hhead
  have hscheme : ((after? "http://".toList u).isSome || (after? "https://".toList u).isSome) = true ↔
      HasPlainScheme u := by
    rw [Bool.or_eq_true, isSome_after?, isSome_after?, HasPlainScheme]
  unfold resolve visited
  rw [String.toList_ofList, trim_eq_self (Shape.notBlank htext)]
  dsimp only
  by_cases h : HasPlainScheme u
  · rw [if_pos (hscheme.mpr h), if_pos h]
  · rw [if_neg (mt hscheme.mp h), if_neg h, if_neg hslash, String.ofList_append]
    rfl

/-- The page was asked to go to the address first, and never to go to another. -/
structure Visits (e : Executor) (url : String) (xs : List Exchange) : Prop where
  first : ∃ o rest, xs = ⟨e.firstGoto url, o⟩ :: rest
  only : ∀ x ∈ xs, ∀ address ready time, x.call = .goto address ready time → address = url

/-- **A navigation goes to its address** and to no other. -/
theorem visits_of_navigates {target url : String} (h : Navigates e (some target) xs r)
    (hblank : isBlankText target = false) (hresolve : e.resolve target = .ok url) : Visits e url xs := by
  have hurl {t url' : String} (addressed : some target = some t) (resolved : e.resolve t = .ok url') : url' = url := by
    cases addressed
    exact Except.ok.inj (resolved.symm.trans hresolve)
  have hpair {x : Exchange} {o : Except CallFault Reply}
      (hx : ∀ address ready time, x.call = .goto address ready time → address = url) :
      Visits e url [⟨e.firstGoto url, o⟩, x] := by
    refine ⟨⟨o, [x], rfl⟩, List.forall_mem_cons.mpr ⟨?_, List.forall_mem_singleton.mpr hx⟩⟩
    rintro address ready time ⟨⟩
    rfl
  cases h with
  | unaddressed blank =>
      rw [blank target rfl] at hblank
      cases hblank
  | unresolved addressed resolved =>
      cases addressed
      cases hresolve.symm.trans resolved
  | reached addressed resolved whole =>
      obtain rfl := hurl addressed resolved
      exact hpair nofun
  | retried addressed resolved =>
      obtain rfl := hurl addressed resolved
      refine hpair ?_
      rintro address ready time ⟨⟩
      rfl
  | refused addressed resolved =>
      obtain rfl := hurl addressed resolved
      refine hpair ?_
      rintro address ready time ⟨⟩
      rfl
  | broke addressed resolved next =>
      obtain rfl := hurl addressed resolved
      cases next with
      | first =>
          refine ⟨⟨_, [], rfl⟩, List.forall_mem_singleton.mpr ?_⟩
          rintro address ready time ⟨⟩
          rfl
      | loading => exact hpair nofun
      | second =>
          refine hpair ?_
          rintro address ready time ⟨⟩
          rfl

/-- **The sentence that opens a URL** leads to it if its scheme is in small letters, and only then: any other
    spelling that the parser takes is put behind a second scheme. -/
theorem does_open_url (e : Executor) (b : Browser σ) (hu : u ∈ urls)
    (hend : ∀ c ∈ u.getLast?, isClosingMark c = false) :
    ∃ step, parseStep (String.ofList ("open ".toList ++ u)) = .ok step ∧
      Does b (fun xs _ => Visits e (String.ofList (visited u)) xs) (e.execute b step) ∧
      (visited u = u ↔ HasPlainScheme u) := by
  have haddress : address? u = some u := by
    refine address?_eq_some_iff.mpr ⟨.url, [], u, ⟨⟨rfl, u, rfl, ?_⟩, fun b v _ => Nat.zero_le _⟩, nofun, ?_⟩
    · exact ⟨List.prefix_refl u, hu, fun v hv _ => hv.length_le⟩
    · exact (dropMarks_eq_self hend).symm
  have htext : u ∈ Shape.url.texts := hu
  have hresolve := e.resolve_of_url hu
  cases u with
  | nil => exact absurd (Shape.head?_of_texts htext (List.prefix_refl _)) nofun
  | cons c t =>
      have hc := Shape.notBlank htext c List.mem_cons_self
      refine ⟨_, parseStep_introduced introduces_open hc haddress, ?_, visited_eq_self_iff⟩
      refine (does_navigate e b _).mono fun xs r h => visits_of_navigates h ?_ hresolve
      rw [isBlankText, String.toList_ofList, allBlank, List.all_cons, hc]
      rfl

/-- **A URL in capitals** is read as one, and another page is visited. -/
theorem does_open_capitals :
    "HTTP://x.co".toList ∈ urls ∧ ∃ step, parseStep "open HTTP://x.co" = .ok step ∧
      step.target = some "HTTP://x.co" ∧
      Does ({} : Script).browser (fun xs _ => Visits {} "https://HTTP://x.co" xs)
        (execute {} ({} : Script).browser step) := by
  have hurl : "HTTP://x.co".toList ∈ urls :=
    Language.mem_mul.mpr ⟨"HTTP://".toList, .inl (by decide +kernel), "x.co".toList,
      ⟨nofun, List.all_eq_true.mp (by decide +kernel)⟩, rfl⟩
  have hlast : "HTTP://x.co".toList.getLast? = some 'o' := by decide +kernel
  have hend : ∀ c ∈ "HTTP://x.co".toList.getLast?, isClosingMark c = false := fun c hc => by
    cases hlast.symm.trans hc
    rfl
  obtain ⟨step, hstep, hdoes, -⟩ := does_open_url {} ({} : Script).browser hurl hend
  refine ⟨hurl, step, hstep, ?_, hdoes⟩
  have htarget : (parseStep "open HTTP://x.co").toOption.bind (·.target) = some "HTTP://x.co" := by
    decide +kernel
  rw [show parseStep "open HTTP://x.co" = .ok step from hstep] at htarget
  exact htarget

end Executor

end StepRunner
