import StepRunner.Proofs.Step.Shape
import StepRunner.Proofs.Step.Trigger
import StepRunner.Step.Parser

/-!
# Which address a sentence has

The three shapes are looked for one after the other in the whole of a text, so what decides is first the
shape and then the place: a URL behind a domain is taken before it, and a domain inside a path before the
path.

* `Shape.FirstIn`: the first place at which a shape stands, which is what a search for it finds
  (`search_here?_eq_some_iff`);
* `address?_eq_some_iff`, `address?_eq_none_iff`: the address of a text;
* `address?_lead`, `address?_append_blanks`: words in front and blanks behind make no difference;
* `address_of_text`: the address against what stands first in the text, and what becomes of a sentence
  that opens a path or navigates to a host.
-/

namespace StepRunner.Step

open Text

variable {shape : Shape} {cs before rest lead more a v w : List Char}

/-! ## 1. Where a shape stands -/

/-- The shape stands in the text after `before`, and takes up `w`. -/
structure Shape.StandsIn (shape : Shape) (cs before w : List Char) : Prop where
  follows : shape.mayFollow before.getLast? = true
  place : ∃ rest, cs = before ++ rest ∧ Longest shape.texts rest w

/-- The first place at which the shape stands in the text. -/
structure Shape.FirstIn (shape : Shape) (cs before w : List Char) : Prop where
  stands : shape.StandsIn cs before w
  first : ∀ b v, shape.StandsIn cs b v → before.length ≤ b.length

/-- The shape stands nowhere in the text. -/
def Shape.IsAbsent (shape : Shape) (cs : List Char) : Prop := ∀ before w, ¬ shape.StandsIn cs before w

/-- No shape stands in the text before this one does. -/
structure Shape.IsEarliest (shape : Shape) (cs before w : List Char) : Prop where
  stands : shape.StandsIn cs before w
  first : ∀ (s : Shape) b v, s.StandsIn cs b v → before.length ≤ b.length

/-- What is made of a text of the shape. -/
def Shape.written : Shape → List Char → List Char
  | .url, w => dropMarks w
  | .domain, w => "https://".toList ++ dropMarks w
  | .path, w => dropMarks w

/-- The shapes that are looked for before this one. -/
def Shape.preferred : Shape → List Shape
  | .url => []
  | .domain => [.url]
  | .path => [.url, .domain]

theorem standsIn_iff : shape.StandsIn cs before w ↔
    ∃ rest, cs = before ++ rest ∧ shape.here? before.getLast? rest = some w := by
  simp only [Shape.here?_eq_some_iff]
  constructor
  · rintro ⟨hfollows, rest, e, h⟩
    exact ⟨rest, e, hfollows, h⟩
  · rintro ⟨rest, e, hfollows, h⟩
    exact ⟨hfollows, rest, e, h⟩

/-- **The first place** of a shape is what a search for it finds. -/
theorem search_here?_eq_some_iff : search shape.here? cs = some w ↔ ∃ before, shape.FirstIn cs before w := by
  rw [search_eq_some_iff_first fun _ _ => standsIn_iff]
  exact exists_congr fun before => ⟨fun h => ⟨h.1, h.2⟩, fun h => ⟨h.stands, h.first⟩⟩

theorem search_here?_eq_none_iff : search shape.here? cs = none ↔ shape.IsAbsent cs := by
  rw [← not_iff_not, ← ne_eq, ← Option.isSome_iff_ne_none, isSome_search_iff]
  simp only [Shape.IsAbsent, not_forall, not_not, standsIn_iff, Option.isSome_iff_exists]
  exact ⟨fun ⟨before, rest, e, w, h⟩ => ⟨before, w, rest, e, h⟩, fun ⟨before, w, rest, e, h⟩ => ⟨before, rest, e, w, h⟩⟩

/-- At one place, the shape takes up one text. -/
theorem Shape.StandsIn.unique {b : List Char} (h : shape.StandsIn cs before w) (h' : shape.StandsIn cs b v)
    (hlen : before.length = b.length) : before = b ∧ w = v := by
  obtain ⟨rest, rfl, hw⟩ := h.place
  obtain ⟨rest', e, hv⟩ := h'.place
  obtain ⟨rfl, rfl⟩ := List.append_inj e hlen
  exact ⟨rfl, hw.unique hv⟩

/-- At one place stands one shape. -/
theorem Shape.StandsIn.eq_shape {s : Shape} {b : List Char} (h : shape.StandsIn cs before w)
    (h' : s.StandsIn cs b v) (hlen : before.length = b.length) : shape = s := by
  obtain ⟨rest, rfl, hw⟩ := h.place
  obtain ⟨rest', e, hv⟩ := h'.place
  obtain ⟨rfl, rfl⟩ := List.append_inj e hlen
  exact Shape.eq_of_texts hw.mem hw.begins hv.mem hv.begins

/-! ## 2. The address of a text -/

/-- A text has the first of the shapes that is found as its address. -/
theorem address?_cases (cs : List Char) :
    (∃ shape w, search (Shape.here? shape) cs = some w ∧ (∀ s ∈ shape.preferred, search s.here? cs = none) ∧
        address? cs = some (shape.written w)) ∨
      (∀ shape : Shape, search shape.here? cs = none) ∧ address? cs = none := by
  have heq : address? cs = ((search Shape.url.here? cs).map Shape.url.written).orElse fun _ =>
      ((search Shape.domain.here? cs).map Shape.domain.written).orElse fun _ =>
        (search Shape.path.here? cs).map Shape.path.written := rfl
  rw [heq]
  cases hurl : search Shape.url.here? cs with
  | some w => exact .inl ⟨.url, w, hurl, nofun, rfl⟩
  | none =>
      cases hdomain : search Shape.domain.here? cs with
      | some w => exact .inl ⟨.domain, w, hdomain, by simpa [Shape.preferred] using hurl, rfl⟩
      | none =>
          cases hpath : search Shape.path.here? cs with
          | some w => exact .inl ⟨.path, w, hpath, by simpa [Shape.preferred] using ⟨hurl, hdomain⟩, rfl⟩
          | none =>
              refine .inr ⟨fun shape => ?_, rfl⟩
              cases shape
              · exact hurl
              · exact hdomain
              · exact hpath

/-- **A text without an address** is one in which no shape stands. -/
theorem address?_eq_none_iff : address? cs = none ↔ ∀ shape : Shape, shape.IsAbsent cs := by
  simp only [← search_here?_eq_none_iff]
  rcases address?_cases cs with ⟨shape, w, hw, -, ha⟩ | ⟨hnone, ha⟩
  · refine iff_of_false (by rw [ha]; nofun) fun h => ?_
    rw [h shape] at hw
    cases hw
  · exact iff_of_true ha hnone

/-- **The address of a text** is the first of the shapes that is not preceded by one that stands anywhere. -/
theorem address?_eq_some_iff : address? cs = some a ↔ ∃ shape before w, Shape.FirstIn shape cs before w ∧
    (∀ s ∈ shape.preferred, s.IsAbsent cs) ∧ a = shape.written w := by
  simp only [← search_here?_eq_none_iff]
  constructor
  · intro h
    rcases address?_cases cs with ⟨shape, w, hw, hnone, ha⟩ | ⟨-, ha⟩
    · obtain ⟨before, hfirst⟩ := search_here?_eq_some_iff.mp hw
      exact ⟨shape, before, w, hfirst, hnone, Option.some.inj (h.symm.trans ha)⟩
    · cases h.symm.trans ha
  · rintro ⟨shape, before, w, hfirst, hnone, rfl⟩
    have hw := search_here?_eq_some_iff.mpr ⟨before, hfirst⟩
    rcases address?_cases cs with ⟨s, v, hv, hnone', ha⟩ | ⟨hnone', -⟩
    · -- of two shapes that are found, one is looked for before the other
      have hs : s = shape := by
        have hne {x y : Shape} {z : List Char} (h : search x.here? cs = some z)
            (h' : ∀ t ∈ y.preferred, search t.here? cs = none) : x ∉ y.preferred := fun hmem => by
          rw [h' x hmem] at h
          cases h
        have h₁ := hne hv hnone
        have h₂ := hne hw hnone'
        revert h₁ h₂
        cases s <;> cases shape <;> decide
      subst hs
      rw [ha, Option.some.inj (hv.symm.trans hw)]
    · rw [hnone' shape] at hw
      cases hw

/-- **What stands first in a text** is its address if no preferred shape stands anywhere; otherwise the
    address is of a preferred shape and stands behind it. -/
theorem address?_of_isEarliest (h : shape.IsEarliest cs before w) :
    (∀ s ∈ shape.preferred, s.IsAbsent cs) ∧ address? cs = some (shape.written w) ∨
      ∃ s ∈ shape.preferred, ∃ b v, s.FirstIn cs b v ∧ before.length < b.length ∧
        address? cs = some (s.written v) := by
  have hsome : address? cs ≠ none := fun hnone => address?_eq_none_iff.mp hnone shape before w h.stands
  obtain ⟨a, ha⟩ := Option.ne_none_iff_exists'.mp hsome
  obtain ⟨s, b, v, hfirst, habsent, rfl⟩ := address?_eq_some_iff.mp ha
  by_cases hs : s = shape
  · subst hs
    have hlen := Nat.le_antisymm (h.first s b v hfirst.stands) (hfirst.first before w h.stands)
    obtain ⟨-, rfl⟩ := h.stands.unique hfirst.stands hlen
    exact .inl ⟨habsent, ha⟩
  · have horder : s ∈ shape.preferred ∨ shape ∈ s.preferred := by
      cases s <;> cases shape <;> simp [Shape.preferred] at hs ⊢
    rcases horder with hmem | hmem
    · refine .inr ⟨s, hmem, b, v, hfirst, Nat.lt_of_le_of_ne (h.first s b v hfirst.stands) fun hlen => ?_, ha⟩
      exact hs (h.stands.eq_shape hfirst.stands hlen).symm
    · exact absurd h.stands (habsent shape hmem before w)

/-! ## 3. Words in front and blanks behind -/

theorem address?_congr {cs' : List Char} (h : ∀ shape : Shape, search shape.here? cs = search shape.here? cs') :
    address? cs = address? cs' := by
  have hurl : search (fun _ => urlHere?) cs = search (fun _ => urlHere?) cs' := h .url
  have hdomain : search domainHere? cs = search domainHere? cs' := h .domain
  have hpath : search pathHere? cs = search pathHere? cs' := h .path
  rw [address?, address?, hurl, hdomain, hpath]

/-- Nothing stands where what ends the first label is no mark of the shape. -/
theorem here?_eq_none {previous : Option Char} (h : (cs.dropWhile isLabelChar).head? ≠ some shape.mark) :
    shape.here? previous cs = none := by
  refine Option.eq_none_iff_forall_not_mem.mpr fun w hw => h ?_
  obtain ⟨-, hw⟩ := Shape.here?_eq_some_iff.mp hw
  exact Shape.head?_of_texts hw.mem hw.begins

/-- The first label of a text that has some other character ends with such a one. -/
theorem exists_head?_dropWhile {back : List Char} {last : Char} (hlast : back.getLast? = some last)
    (hplain : isLabelChar last = false) (cs : List Char) :
    ∃ c ∈ back, isLabelChar c = false ∧ ((back ++ cs).dropWhile isLabelChar).head? = some c := by
  induction back with
  | nil => cases hlast
  | cons c back ih =>
      by_cases hc : isLabelChar c = true
      · have hlast' : back.getLast? = some last := by
          cases back with
          | nil =>
              obtain rfl := Option.some.inj hlast
              cases hplain.symm.trans hc
          | cons d back => rwa [List.getLast?_cons_cons] at hlast
        obtain ⟨d, hd, hplain', hhead⟩ := ih hlast'
        refine ⟨d, List.mem_cons_of_mem c hd, hplain', ?_⟩
        rwa [List.cons_append, List.dropWhile_cons_of_pos hc]
      · refine ⟨c, List.mem_cons_self, Bool.eq_false_iff.mpr hc, ?_⟩
        rw [List.cons_append, List.dropWhile_cons_of_neg hc]
        rfl

/-- Words of letters, digits and hyphens, with a space behind each. -/
structure IsLead (lead : List Char) : Prop where
  chars : ∀ c ∈ lead, isLabelChar c = true ∨ c = ' '
  last : lead.getLast? = some ' '

/-- **Words in front** make no difference to an address. -/
theorem address?_lead (h : IsLead lead) (cs : List Char) : address? (lead ++ cs) = address? cs := by
  refine address?_congr fun shape => ?_
  have hnothing : NothingIn shape.here? none lead cs := by
    intro front back e hne
    have hlast : back.getLast? = some ' ' := by
      rw [← List.getLast?_append_of_ne_nil front hne, ← e]
      exact h.last
    obtain ⟨c, hc, hplain, hhead⟩ := exists_head?_dropWhile hlast (by decide) cs
    have hc : c = ' ' := (h.chars c (e ▸ List.mem_append_right front hc)).resolve_left (by simp [hplain])
    refine here?_eq_none ?_
    rw [hhead, hc]
    cases shape <;> decide
  have hfollows : shape.here? (some ' ') cs = shape.here? none cs := by
    refine Option.ext fun w => ?_
    rw [Shape.here?_eq_some_iff, Shape.here?_eq_some_iff]
    have hmay : shape.mayFollow (some ' ') = shape.mayFollow none := by
      cases shape <;> decide
    rw [hmay]
  unfold search
  rw [searchFrom_append hnothing, h.last]
  cases cs with
  | nil => exact hfollows
  | cons c cs => rw [Option.some_or, searchFrom, searchFrom, hfollows]

theorem here?_append_blanks (hmore : ∀ c ∈ more, isBlank c = true) (previous : Option Char) (cs : List Char) :
    shape.here? previous (cs ++ more) = shape.here? previous cs := by
  refine Option.ext fun w => ?_
  rw [Shape.here?_eq_some_iff, Shape.here?_eq_some_iff, longest_append_iff]
  intro c hc v hv hmem
  cases (hmore c hc).symm.trans (Shape.notBlank hv c hmem)

/-- **Blanks behind** make no difference to what a search finds. -/
theorem search_here?_append_blanks (hmore : ∀ c ∈ more, isBlank c = true) (cs : List Char) :
    search shape.here? (cs ++ more) = search shape.here? cs := by
  have hnil (previous : Option Char) : shape.here? previous [] = none := here?_eq_none nofun
  have hblanks (previous : Option Char) : searchFrom shape.here? previous more = none := by
    rw [← Option.not_isSome_iff_eq_none, isSome_searchFrom_iff]
    rintro ⟨before, rest, rfl, hsome⟩
    have hrest : shape.here? (before.getLast?.or previous) ([] ++ rest) = _ :=
      here?_append_blanks (fun c hc => hmore c (List.mem_append_right before hc)) _ []
    rw [List.nil_append, hnil] at hrest
    rw [hrest] at hsome
    cases hsome
  unfold search
  generalize (none : Option Char) = previous
  induction cs generalizing previous with
  | nil =>
      rw [List.nil_append, hblanks]
      exact (hnil previous).symm
  | cons c cs ih =>
      rw [List.cons_append, searchFrom, searchFrom, ← List.cons_append, here?_append_blanks hmore, ih]

theorem address?_append_blanks (hmore : ∀ c ∈ more, isBlank c = true) (cs : List Char) :
    address? (cs ++ more) = address? cs :=
  address?_congr fun _ => search_here?_append_blanks hmore cs

/-! ## 4. Sentences -/

/-- The words with which a sentence asks to navigate. -/
structure Introduces (lead : List Char) : Prop where
  isLead : IsLead lead
  starts : ∃ c t, lead = c :: t ∧ isBlank c = false
  family : ∀ cs, Family.find? (lower (lead ++ cs)) = some .navigate

theorem find?_of_begins (word : String) (hword : word ∈ Family.navigate.triggers) (h : Begins word cs) :
    Family.find? cs = some .navigate :=
  List.find?_cons_of_pos (hasTrigger_iff.mpr ⟨[], cs, rfl, rfl, word, hword, h⟩)

theorem isLead_of_all (h : lead.all (fun c => isLabelChar c || c == ' ') = true)
    (hlast : lead.getLast? = some ' ') : IsLead lead :=
  ⟨fun c hc => by simpa using List.all_eq_true.mp h c hc, hlast⟩

theorem introduces_open : Introduces "open ".toList := by
  refine ⟨isLead_of_all (by decide) rfl, ⟨'o', _, rfl, rfl⟩, fun cs => find?_of_begins "open" (by decide) ?_⟩
  exact ⟨_, "", _, rfl, by decide, rfl, rfl⟩

theorem introduces_navigate : Introduces "navigate to ".toList := by
  refine ⟨isLead_of_all (by decide) rfl, ⟨'n', _, rfl, rfl⟩, fun cs => find?_of_begins "navigate" (by decide) ?_⟩
  exact ⟨_, "", _, rfl, by decide, rfl, rfl⟩

/-- **A sentence that asks to navigate** to what follows goes to the address of that. -/
theorem parseStep_introduced {c : Char} (h : Introduces lead) (hc : isBlank c = false)
    (ha : address? (c :: cs) = some a) :
    parseStep (String.ofList (lead ++ c :: cs)) = .ok
      { action := .navigate, sentence := String.ofList (lead ++ c :: trimRight cs), target := some (String.ofList a) } := by
  have htrim : trim (lead ++ c :: cs) = lead ++ c :: trimRight cs := by
    obtain ⟨d, t, rfl, hd⟩ := h.starts
    have hleft : trimLeft (d :: t ++ c :: cs) = d :: t ++ c :: cs :=
      List.dropWhile_cons_of_neg (by simp [hd])
    rw [trim, hleft]
    exact dropRightWhile_append_cons hc (d :: t) cs
  have haddress : address? (lead ++ c :: trimRight cs) = some a := by
    obtain ⟨back, e, hback, -⟩ := exists_of_dropRightWhile isBlank cs
    have hcs : trimRight cs ++ back = cs := e.symm
    rw [address?_lead h.isLead, ← address?_append_blanks hback, List.cons_append, hcs]
    exact ha
  rw [parseStep, String.toList_ofList, htrim, parseTrimmed, h.family]
  show Except.ok _ = _
  rw [haddress]
  rfl

/-! ## 5. Paths and hosts -/

theorem dropMarks_eq_self (h : ∀ c ∈ cs.getLast?, isClosingMark c = false) : dropMarks cs = cs :=
  dropRightWhile_eq_self h

/-- A URL has a colon. -/
theorem colon_mem_of_standsIn (h : Shape.url.StandsIn cs before w) : ':' ∈ cs := by
  obtain ⟨rest, rfl, hw⟩ := h.place
  obtain ⟨scheme, hscheme, body, -, rfl⟩ := Language.mem_mul.mp hw.mem
  obtain ⟨letters, rest', rfl, -⟩ := exists_colon_of_webScheme hscheme
  exact List.mem_append_right _ (hw.begins.subset (by simp))

/-- **A path** that does not end in a mark is its own address, unless a domain stands in it. -/
theorem address?_path {p : List Char} (hp : p ∈ slashed isPathChar) (hend : ∀ c ∈ p.getLast?, isClosingMark c = false) :
    Shape.domain.IsAbsent p ∧ address? p = some p ∨
      ∃ before w, Shape.domain.FirstIn p before w ∧ address? p = some ("https://".toList ++ dropMarks w) := by
  have hurl : Shape.url.IsAbsent p := by
    obtain ⟨t, rfl, ht⟩ := hp
    intro before w h
    rcases List.mem_cons.mp (colon_mem_of_standsIn h) with h | h
    · cases h
    · exact absurd (ht _ h) (by decide)
  cases hdomain : search Shape.domain.here? p with
  | none =>
      have habsent := search_here?_eq_none_iff.mp hdomain
      refine .inl ⟨habsent, address?_eq_some_iff.mpr ⟨.path, [], p, ⟨⟨rfl, p, rfl, ?_⟩, ?_⟩, ?_, ?_⟩⟩
      · exact ⟨List.prefix_refl p, hp, fun v hv _ => hv.length_le⟩
      · exact fun b v _ => Nat.zero_le _
      · simpa [Shape.preferred] using ⟨hurl, habsent⟩
      · exact (dropMarks_eq_self hend).symm
  | some w =>
      obtain ⟨before, hfirst⟩ := search_here?_eq_some_iff.mp hdomain
      refine .inr ⟨before, w, hfirst, address?_eq_some_iff.mpr ⟨.domain, before, w, hfirst, ?_, rfl⟩⟩
      simpa [Shape.preferred] using hurl

/-- No URL begins inside a host. -/
theorem search_url_behind_host {host : List Char} (hhost : host ∈ hosts false) (rest : List Char) :
    search Shape.url.here? (host ++ '/' :: rest) = search Shape.url.here? rest := by
  have hnothing : NothingIn Shape.url.here? none (host ++ ['/']) rest := by
    intro front back e hne
    have hlast : back.getLast? = some '/' := by
      rw [← List.getLast?_append_of_ne_nil front hne, ← e, List.getLast?_concat]
    obtain ⟨c, hc, -, hhead⟩ := exists_head?_dropWhile hlast (by decide) rest
    refine here?_eq_none fun h => ?_
    obtain rfl : c = ':' := Option.some.inj (hhead.symm.trans h)
    have hmem : ':' ∈ host ++ ['/'] := e ▸ List.mem_append_right front hc
    exact (notMem_host hhost).1 (by simpa using hmem)
  have hcons : host ++ '/' :: rest = host ++ ['/'] ++ rest := by rw [List.append_assoc]; rfl
  unfold search
  rw [hcons, searchFrom_append hnothing]
  cases rest <;> rfl

/-- **A host with something behind it** is what a text goes to, unless a URL stands behind it. -/
theorem address?_host {host : List Char} (hhost : host ∈ hosts false) (rest : List Char) :
    Shape.url.IsAbsent rest ∧
        address? (host ++ '/' :: rest) = some ("https://".toList ++ host ++ '/' :: dropMarks (rest.takeWhile isUrlChar)) ∨
      ∃ before w, Shape.url.FirstIn rest before w ∧ address? (host ++ '/' :: rest) = some (dropMarks w) := by
  have hsearch := search_url_behind_host hhost rest
  cases hurl : search Shape.url.here? rest with
  | none =>
      rw [hurl] at hsearch
      have hport : host ∈ hosts false * (1 + ports) :=
        Language.mem_mul.mpr ⟨host, hhost, [], (Language.mem_add _ _ _).mpr (.inl Language.nil_mem_one), List.append_nil host⟩
      have hlongest := longest_withPath (longest_of_notMem hport (fun v hv => notMem_withPort hv) rest)
        (longest_slashed isUrlChar rest).optional
      refine .inl ⟨search_here?_eq_none_iff.mp hurl, address?_eq_some_iff.mpr
        ⟨.domain, [], _, ⟨⟨rfl, _, rfl, hlongest⟩, fun b v _ => Nat.zero_le _⟩, ?_, ?_⟩⟩
      · simpa [Shape.preferred] using search_here?_eq_none_iff.mp hsearch
      · have hmarks : dropMarks (host ++ '/' :: rest.takeWhile isUrlChar) =
            host ++ '/' :: dropMarks (rest.takeWhile isUrlChar) := dropRightWhile_append_cons (by decide) host _
        rw [List.append_assoc, ← hmarks]
        exact rfl
  | some w =>
      rw [hurl] at hsearch
      obtain ⟨before, hfirst⟩ := search_here?_eq_some_iff.mp hurl
      obtain ⟨before', hfirst'⟩ := search_here?_eq_some_iff.mp hsearch
      exact .inr ⟨before, w, hfirst, address?_eq_some_iff.mpr ⟨.url, before', w, hfirst', nofun, rfl⟩⟩

/-- **Which address a text has.** There is one exactly if some shape stands in it. What stands first is the
    address if no preferred shape stands anywhere, and else the address stands behind it. So a sentence that
    opens a path goes to it unless a domain stands in it, and one that navigates to a host with the text
    behind it goes there unless a URL stands in the text. -/
theorem address_of_text (cs : List Char) :
    (address? cs = none ↔ ∀ shape : Shape, shape.IsAbsent cs) ∧
    (∀ shape before w, Shape.IsEarliest shape cs before w →
      (∀ s ∈ shape.preferred, s.IsAbsent cs) ∧ address? cs = some (shape.written w) ∨
        ∃ s ∈ shape.preferred, ∃ b v, s.FirstIn cs b v ∧ before.length < b.length ∧
          address? cs = some (s.written v)) ∧
    (cs ∈ slashed isPathChar → (∀ c ∈ cs.getLast?, isClosingMark c = false) →
      ∃ step, parseStep (String.ofList ("open ".toList ++ cs)) = .ok step ∧ step.action = .navigate ∧
        (Shape.domain.IsAbsent cs ∧ step.target = some (String.ofList cs) ∨
          ∃ before w, Shape.domain.FirstIn cs before w ∧
            step.target = some (String.ofList ("https://".toList ++ dropMarks w)))) ∧
    ∀ host ∈ hosts false,
      ∃ step, parseStep (String.ofList ("navigate to ".toList ++ (host ++ '/' :: cs))) = .ok step ∧
        step.action = .navigate ∧
        (Shape.url.IsAbsent cs ∧ step.target = some (String.ofList
            ("https://".toList ++ host ++ '/' :: dropMarks (cs.takeWhile isUrlChar))) ∨
          ∃ before w, Shape.url.FirstIn cs before w ∧ step.target = some (String.ofList (dropMarks w))) := by
  refine ⟨address?_eq_none_iff, fun shape before w => address?_of_isEarliest, ?_, ?_⟩
  · intro hp hend
    have haddress := address?_path hp hend
    obtain ⟨t, rfl, -⟩ := hp
    rcases haddress with ⟨habsent, ha⟩ | ⟨before, w, hfirst, ha⟩
    · exact ⟨_, parseStep_introduced introduces_open rfl ha, rfl, .inl ⟨habsent, rfl⟩⟩
    · exact ⟨_, parseStep_introduced introduces_open rfl ha, rfl, .inr ⟨before, w, hfirst, rfl⟩⟩
  · intro host hhost
    have haddress := address?_host hhost cs
    obtain ⟨c, t, rfl⟩ : ∃ c t, host = c :: t := List.exists_cons_of_ne_nil (Host.ne_nil hhost)
    have hc : isBlank c = false := Host.notBlank hhost c List.mem_cons_self
    rcases haddress with ⟨habsent, ha⟩ | ⟨before, w, hfirst, ha⟩
    · exact ⟨_, parseStep_introduced introduces_navigate hc ha, rfl, .inl ⟨habsent, rfl⟩⟩
    · exact ⟨_, parseStep_introduced introduces_navigate hc ha, rfl, .inr ⟨before, w, hfirst, rfl⟩⟩

/-- **A path is not gone to** although it stands first, since a file name in it is a domain; and so is a host
    since there is a URL in what is asked of it. -/
theorem address_of_report :
    Shape.path.IsEarliest "/files/report.pdf".toList [] "/files/report.pdf".toList ∧
      (∃ step, parseStep "open /files/report.pdf" = .ok step ∧ step.target = some "https://report.pdf") ∧
      ∃ step, parseStep "navigate to example.com/?u=http://other.com" = .ok step ∧
        step.target = some "http://other.com" := by
  have hpath : Longest (slashed isPathChar) "/files/report.pdf".toList "/files/report.pdf".toList :=
    longest_slashed isPathChar "files/report.pdf".toList
  have hdomain : search Shape.domain.here? "/files/report.pdf".toList = some "report.pdf".toList := by
    decide +kernel
  have hurl : search Shape.url.here? "?u=http://other.com".toList = some "http://other.com".toList := by
    decide +kernel
  have hhost : "example.com".toList ∈ hosts false :=
    @Host.label false "example".toList _ ⟨List.all_eq_true.mp (by decide +kernel), rfl, rfl⟩
      (Host.top (by decide) (List.all_eq_true.mp (by decide +kernel)))
  obtain ⟨-, -, hopen, -⟩ := address_of_text "/files/report.pdf".toList
  obtain ⟨-, -, -, hnavigate⟩ := address_of_text "?u=http://other.com".toList
  refine ⟨⟨⟨rfl, _, rfl, hpath⟩, fun _ _ _ _ => Nat.zero_le _⟩, ?_, ?_⟩
  · have hlast : "/files/report.pdf".toList.getLast? = some 'f' := by decide +kernel
    have hend : ∀ c ∈ "/files/report.pdf".toList.getLast?, isClosingMark c = false := fun c hc => by
      cases hlast.symm.trans hc
      rfl
    obtain ⟨step, hstep, -, htarget⟩ := hopen hpath.mem hend
    refine ⟨step, hstep, ?_⟩
    rcases htarget with ⟨habsent, -⟩ | ⟨before, w, hfirst, htarget⟩
    · cases hdomain.symm.trans (search_here?_eq_none_iff.mpr habsent)
    · have hw := hdomain.symm.trans (search_here?_eq_some_iff.mpr ⟨before, hfirst⟩)
      obtain rfl := Option.some.inj hw
      exact htarget
  · obtain ⟨step, hstep, -, htarget⟩ := hnavigate _ hhost
    refine ⟨step, hstep, ?_⟩
    rcases htarget with ⟨habsent, -⟩ | ⟨before, w, hfirst, htarget⟩
    · cases hurl.symm.trans (search_here?_eq_none_iff.mpr habsent)
    · have hw := hurl.symm.trans (search_here?_eq_some_iff.mpr ⟨before, hfirst⟩)
      obtain rfl := Option.some.inj hw
      exact htarget

end StepRunner.Step
