import StepRunner.Proofs.Step.Navigation

/-!
# Where a sentence with a bare domain leads

A `BareDomain` is written in small letters, digits and inner hyphens. Its labels may spell any word, also one
that asks for another action: it is a host, nothing in it is a URL, and as a whole it is its own address.

* `BareDomain.host`: label by label, a bare domain is a host;
* `address?_bareDomain`: the address of a bare domain;
* `does_navigate_domain`: the sentence that navigates to a bare domain, from its text to the calls of the page.
-/

namespace StepRunner

namespace Step

open Text

variable {c : Char} {d w label top : List Char} {begun : Bool}

/-! ## 1. Bare domains -/

/-- A small letter of ASCII. -/
def IsSmall (c : Char) : Prop := 'a' ≤ c ∧ c ≤ 'z'

instance (c : Char) : Decidable (IsSmall c) := inferInstanceAs (Decidable (_ ∧ _))

/-- Small letters, digits and hyphens, with no hyphen at either end. -/
structure IsPlainLabel (label : List Char) : Prop where
  filled : label ≠ []
  chars : ∀ c ∈ label, IsSmall c ∨ isAsciiDigit c = true ∨ c = '-'
  first : label.head? ≠ some '-'
  last : label.getLast? ≠ some '-'

/-- Two labels or more with points between them, the last of two letters or more. -/
inductive BareDomain : List Char → Prop where
  | ending {label top : List Char} (isLabel : IsPlainLabel label) (long : 2 ≤ top.length)
      (letters : ∀ c ∈ top, IsSmall c) : BareDomain (label ++ '.' :: top)
  | label {label rest : List Char} (isLabel : IsPlainLabel label) (domain : BareDomain rest) :
      BareDomain (label ++ '.' :: rest)

/-! ## 2. A bare domain is a host -/

theorem small_ascii : ∀ c : Char, c.toNat < 0x80 → IsSmall c → foldsToLetter c = true ∧ isClosingMark c = false :=
  forall_ascii (by decide +kernel)

theorem IsSmall.plain (h : IsSmall c) : foldsToLetter c = true ∧ isClosingMark c = false :=
  small_ascii c (ascii_of_le h.2 (by decide)) h

theorem IsPlainLabel.alphanum (h : IsPlainLabel label) (hc : c ∈ label) (hyphen : c ≠ '-') :
    foldsToAlphanum c = true := by
  unfold foldsToAlphanum
  rcases h.chars c hc with hsmall | hdigit | rfl
  · rw [hsmall.plain.1, Bool.true_or]
  · rw [hdigit, Bool.or_true]
  · exact absurd rfl hyphen

theorem IsPlainLabel.isLabel (h : IsPlainLabel label) : IsLabel label := by
  refine ⟨fun c hc => ?_, ?_, ?_⟩
  · unfold isLabelChar
    by_cases hyphen : c = '-'
    · simp [hyphen]
    · rw [h.alphanum hc hyphen, Bool.true_or]
  · obtain ⟨c, rest, rfl⟩ := List.exists_cons_of_ne_nil h.filled
    exact h.alphanum List.mem_cons_self fun e => h.first (congrArg some e)
  · obtain ⟨c, hc⟩ := Option.ne_none_iff_exists'.mp (mt List.getLast?_eq_none_iff.mp h.filled)
    rw [hc]
    exact h.alphanum (List.mem_of_getLast? hc) fun e => h.last (e ▸ hc)

/-- **A bare domain is a host**, also behind labels that were read. -/
theorem BareDomain.host (h : BareDomain d) (begun : Bool) : Host begun d := by
  induction h generalizing begun with
  | ending isLabel long letters => exact .label isLabel.isLabel (.top long fun c hc => (letters c hc).plain.1)
  | label isLabel domain ih => exact .label isLabel.isLabel (ih true)

/-- A bare domain ends in a letter. -/
theorem BareDomain.last (h : BareDomain d) : ∀ c ∈ d.getLast?, isClosingMark c = false := by
  induction h with
  | @ending label top isLabel long letters =>
      have hne : top ≠ [] := by
        rintro rfl
        cases long
      rw [List.append_cons, List.getLast?_append_of_ne_nil _ hne]
      exact fun c hc => (letters c (List.mem_of_getLast? hc)).plain.2
  | @label label rest isLabel domain ih =>
      rwa [List.append_cons, List.getLast?_append_of_ne_nil _ (domain.host true).ne_nil]

/-! ## 3. The address of a bare domain -/

/-- The characters of a host are characters of a URL. -/
theorem Host.isUrlChar (h : Host begun w) : ∀ c ∈ w, isUrlChar c = true := by
  intro c hc
  have hquotes {x : Char} (hx : isLabelChar x = false) (hdot : x ≠ '.') : (c == x) = false := by
    refine beq_eq_false_iff_ne.mpr ?_
    rintro rfl
    exact (h.chars c hc).elim (fun hlabel => by rw [hx] at hlabel; cases hlabel) hdot
  unfold Step.isUrlChar
  rw [Host.notBlank h c hc, hquotes (by decide) (by decide), hquotes (by decide) (by decide),
    hquotes (by decide) (by decide), hquotes (by decide) (by decide)]
  rfl

theorem mem_domains_of_host (h : w ∈ hosts false) : w ∈ domains := by
  have hoptional {M : Language Char} : [] ∈ 1 + M := (Language.mem_add _ _ _).mpr (.inl Language.nil_mem_one)
  have hport : w ∈ hosts false * (1 + ports) := Language.mem_mul.mpr ⟨w, h, [], hoptional, List.append_nil w⟩
  exact Language.mem_mul.mpr ⟨w, hport, [], hoptional, List.append_nil w⟩

/-- **The address of a bare domain** is the domain, with a scheme in front. -/
theorem address?_bareDomain (h : BareDomain d) : address? d = some ("https://".toList ++ d) := by
  have hhost : d ∈ hosts false := h.host false
  have hurl : Shape.url.IsAbsent d := fun before w hstands => (notMem_host hhost).1 (colon_mem_of_standsIn hstands)
  have hstands : Shape.domain.StandsIn d [] d := ⟨rfl, d, rfl, longest_self (mem_domains_of_host hhost)⟩
  refine address?_eq_some_iff.mpr ⟨.domain, [], d, ⟨hstands, fun b v _ => Nat.zero_le _⟩, ?_, ?_⟩
  · simpa [Shape.preferred] using hurl
  · exact congrArg ("https://".toList ++ ·) (dropMarks_eq_self h.last).symm

/-- With a scheme in front, a host is a URL. -/
theorem mem_urls_of_host (h : w ∈ hosts false) : "https://".toList ++ w ∈ urls := by
  have hscheme : "https://".toList ∈ webSchemes := Or.inr (by decide +kernel)
  have hbody : w ∈ someOver isUrlChar := ⟨Host.ne_nil h, Host.isUrlChar h⟩
  exact Language.append_mem_mul hscheme hbody

end Step

namespace Executor

open Text Step

variable {σ : Type} {d : List Char}

/-- **The sentence that navigates to a bare domain** leads to it, whatever words stand in it. -/
theorem does_navigate_domain (e : Executor) (b : Browser σ) (h : BareDomain d) :
    ∃ step, parseStep (String.ofList ("navigate to ".toList ++ d)) = .ok step ∧ step.action = .navigate ∧
      step.target = some (String.ofList ("https://".toList ++ d)) ∧
      Does b (fun xs _ => Visits e (String.ofList ("https://".toList ++ d)) xs) (e.execute b step) := by
  have hhost : d ∈ hosts false := h.host false
  have haddress := address?_bareDomain h
  have hresolve := e.resolve_of_url (mem_urls_of_host hhost)
  rw [visited_eq_self_iff.mpr (.inr (List.prefix_append _ _))] at hresolve
  have hfilled : isBlankText (String.ofList ("https://".toList ++ d)) = false := by
    rw [isBlankText, String.toList_ofList]
    rfl
  obtain ⟨c, t, rfl⟩ := List.exists_cons_of_ne_nil (Host.ne_nil hhost)
  have hc : isBlank c = false := Host.notBlank hhost c List.mem_cons_self
  refine ⟨_, parseStep_introduced introduces_navigate hc haddress, rfl, rfl, ?_⟩
  exact (does_navigate e b _).mono fun xs r hnavigates => visits_of_navigates hnavigates hfilled hresolve

/-- **A domain of trigger words** is visited. -/
theorem does_navigate_domain_of_triggers :
    BareDomain "click.type-2-wait.pick.co".toList ∧
      ∃ step, parseStep "navigate to click.type-2-wait.pick.co" = .ok step ∧
        step.target = some "https://click.type-2-wait.pick.co" ∧
        Does ({} : Script).browser (fun xs _ => Visits {} "https://click.type-2-wait.pick.co" xs)
          (execute {} ({} : Script).browser step) := by
  have hlabel {label : List Char} (hfilled : label.isEmpty = false)
      (hchars : label.all (fun c => IsSmall c ∨ isAsciiDigit c = true ∨ c = '-') = true)
      (hfirst : label.head? ≠ some '-') (hlast : label.getLast? ≠ some '-') : IsPlainLabel label :=
    ⟨by simpa using hfilled, fun c hc => by simpa using List.all_eq_true.mp hchars c hc, hfirst, hlast⟩
  have hletters : "co".toList.all (fun c => IsSmall c) = true := by decide +kernel
  have htop : ∀ c ∈ "co".toList, IsSmall c := fun c hc => of_decide_eq_true (List.all_eq_true.mp hletters c hc)
  have h : BareDomain "click.type-2-wait.pick.co".toList :=
    @BareDomain.label "click".toList _ (hlabel (by decide) (by decide +kernel) (by decide) (by decide))
      (@BareDomain.label "type-2-wait".toList _ (hlabel (by decide) (by decide +kernel) (by decide) (by decide))
        (@BareDomain.ending "pick".toList "co".toList
          (hlabel (by decide) (by decide +kernel) (by decide) (by decide)) (by decide) htop))
  obtain ⟨step, hstep, -, htarget, hdoes⟩ := does_navigate_domain {} ({} : Script).browser h
  exact ⟨h, step, hstep, htarget, hdoes⟩

end Executor

end StepRunner
