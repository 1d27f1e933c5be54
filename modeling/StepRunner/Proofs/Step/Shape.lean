import StepRunner.Proofs.Text.Longest
import StepRunner.Step.Address

/-!
# The shapes of an address

An address is a URL, a domain or a path. What each of them is, is a language (`Shape.texts`), and where it
may stand depends on the character before it (`Shape.mayFollow`). The readers of the parser read just
that (`Shape.here?_eq_some_iff`): as much as the language takes, wherever the shape may stand.

* `takes_afterDomain?`: the labels of a domain, by the recursion of their reader;
* `Shape.eq_of_texts`: at one place stands one shape at most, since what ends the first label tells it.
-/

namespace StepRunner.Step

open Text

variable {p : Char → Bool} {c : Char} {cs rest v w label label' : List Char} {begun : Bool}

/-! ## 1. The languages -/

/-- Some characters of a class. -/
def someOver (p : Char → Bool) : Language Char := {w | w ≠ [] ∧ ∀ c ∈ w, p c = true}

/-- A slash, and characters of a class. -/
def slashed (p : Char → Bool) : Language Char := {w | ∃ t, w = '/' :: t ∧ ∀ c ∈ t, p c = true}

/-- `http://` or `https://`, letters compared without case. -/
def webSchemes : Language Char := {w | w.map fold = "http://".toList ∨ w.map fold = "https://".toList}

/-- The URLs with a scheme. -/
def urls : Language Char := webSchemes * someOver isUrlChar

/-- A label of a domain: letters, digits and hyphens, with a letter or digit at either end. -/
structure IsLabel (label : List Char) : Prop where
  chars : ∀ c ∈ label, isLabelChar c = true
  first : label.head?.any foldsToAlphanum = true
  last : label.getLast?.any foldsToAlphanum = true

/-- A host, of which labels may have been read: at least one label and its point, and then two letters or
    more. -/
inductive Host : Bool → List Char → Prop where
  | top {top : List Char} (long : 2 ≤ top.length) (letters : ∀ c ∈ top, foldsToLetter c = true) : Host true top
  | label {begun : Bool} {label rest : List Char} (isLabel : IsLabel label) (host : Host true rest) :
      Host begun (label ++ '.' :: rest)

/-- The hosts, or what is left of them where labels were read. -/
def hosts (begun : Bool) : Language Char := {w | Host begun w}

/-- The ports. -/
def ports : Language Char := {w | ∃ digits ∈ someOver isDigit, w = ':' :: digits}

/-- The domains: a host, with or without a port and a path. -/
def domains : Language Char := hosts false * (1 + ports) * (1 + slashed isUrlChar)

/-- The shapes of an address. -/
inductive Shape where
  | url
  | domain
  | path
  deriving DecidableEq, Repr

/-- The texts of a shape. -/
def Shape.texts : Shape → Language Char
  | .url => urls
  | .domain => domains
  | .path => slashed isPathChar

/-- A shape may stand after the character. -/
def Shape.mayFollow : Shape → Option Char → Bool
  | .url, _ => true
  | .domain, previous => atDomainStart previous
  | .path, previous => previous.all isBlank

/-- The reader of a shape. -/
def Shape.here? : Shape → Option Char → List Char → Option (List Char)
  | .url => fun _ => urlHere?
  | .domain => domainHere?
  | .path => pathHere?

/-! ## 2. Characters -/

theorem longest_someOver (h : cs.takeWhile p ≠ []) : Longest (someOver p) cs (cs.takeWhile p) :=
  ⟨List.takeWhile_prefix p, ⟨h, fun _ hc => List.mem_takeWhile_imp hc⟩, fun _ hv hm => length_le_takeWhile hv hm.2⟩

theorem takeWhile_ne_nil (hv : v <+: cs) (hm : v ∈ someOver p) : cs.takeWhile p ≠ [] := by
  intro h
  have hle := length_le_takeWhile hv hm.2
  rw [h] at hle
  exact hm.1 (List.length_eq_zero_iff.mp (Nat.le_zero.mp hle))

theorem longest_slashed (p : Char → Bool) (rest : List Char) :
    Longest (slashed p) ('/' :: rest) ('/' :: rest.takeWhile p) := by
  refine ⟨(List.prefix_cons_inj _).mpr (List.takeWhile_prefix p), ⟨_, rfl, fun _ hc => List.mem_takeWhile_imp hc⟩, ?_⟩
  rintro v hv ⟨t, rfl, ht⟩
  exact Nat.succ_le_succ (length_le_takeWhile ((List.prefix_cons_inj _).mp hv) ht)

/-- Only letters fold to another character, and to letters. -/
theorem eq_of_fold (h : ¬ ('a' ≤ fold c ∧ fold c ≤ 'z')) : fold c = c := by
  revert h
  unfold fold
  split
  · next hc =>
      intro h
      have hval : (Char.ofNat (c.toNat + 32)).toNat = c.toNat + 32 := by
        refine toNat_ofNat (.inl ?_)
        have hle : c.toNat ≤ 'Z'.toNat := hc.2
        have hz : 'Z'.toNat = 90 := rfl
        omega
      refine absurd ⟨?_, ?_⟩ h
      · show 'a'.toNat ≤ (Char.ofNat (c.toNat + 32)).toNat
        rw [hval]
        have hle : 'A'.toNat ≤ c.toNat := hc.1
        exact Nat.add_le_add_right hle 32
      · show (Char.ofNat (c.toNat + 32)).toNat ≤ 'z'.toNat
        rw [hval]
        have hle : c.toNat ≤ 'Z'.toNat := hc.2
        exact Nat.add_le_add_right hle 32
  · split
    · exact fun h => absurd (by decide) h
    · split
      · exact fun h => absurd (by decide) h
      · split
        · exact fun h => absurd (by decide) h
        · exact fun _ => rfl

/-! ## 3. URLs -/

/-- No scheme is the beginning of another. -/
theorem eq_of_webScheme (hv : v ∈ webSchemes) (hw : w ∈ webSchemes) (h : v <+: w) : v = w := by
  have hmap : v.map fold <+: w.map fold := h.map fold
  have hlength {x y : List Char} (e : x.map fold = y) : x.length = y.length := by rw [← e, List.length_map]
  rcases hv with hv | hv <;> rcases hw with hw | hw
  · exact h.eq_of_length ((hlength hv).trans (hlength hw).symm)
  · rw [hv, hw] at hmap
    exact absurd hmap (by decide)
  · rw [hv, hw] at hmap
    exact absurd hmap (by decide)
  · exact h.eq_of_length ((hlength hv).trans (hlength hw).symm)

theorem longest_webScheme (hw : w ∈ webSchemes) (rest : List Char) : Longest webSchemes (w ++ rest) w := by
  refine ⟨List.prefix_append _ _, hw, fun v hv hm => ?_⟩
  rcases List.prefix_or_prefix_of_prefix hv (List.prefix_append w rest) with h | h
  · exact h.length_le
  · exact (congrArg List.length (eq_of_webScheme hw hm h)).ge

theorem takes_afterWebScheme? (cs : List Char) : Takes webSchemes cs (afterWebScheme? cs) := by
  have hafter {rest : List Char} (h : afterWebScheme? cs = some rest) : ∃ w, cs = w ++ rest ∧ w ∈ webSchemes := by
    unfold afterWebScheme? at h
    cases hs : afterLiteral? "https://".toList cs with
    | some rest' =>
        rw [hs] at h
        obtain rfl : rest' = rest := Option.some.inj h
        obtain ⟨w, e, hw⟩ := afterLiteral?_eq_some_iff.mp hs
        exact ⟨w, e, .inr hw⟩
    | none =>
        rw [hs] at h
        obtain ⟨w, e, hw⟩ := afterLiteral?_eq_some_iff.mp h
        exact ⟨w, e, .inl hw⟩
  refine ⟨fun rest h => ?_, ?_⟩
  · obtain ⟨w, rfl, hw⟩ := hafter h
    exact ⟨w, rfl, longest_webScheme hw rest⟩
  · rintro v ⟨rest, rfl⟩ hv
    unfold afterWebScheme?
    rcases hv with hv | hv
    · rw [afterLiteral?_eq_some_iff.mpr ⟨v, rfl, hv⟩]
      cases afterLiteral? "https://".toList (v ++ rest) <;> rfl
    · rw [afterLiteral?_eq_some_iff.mpr ⟨v, rfl, hv⟩]
      rfl

/-- **A URL** is read as far as it goes. -/
theorem urlHere?_eq_some_iff : urlHere? cs = some w ↔ Longest urls cs w := by
  refine reads_iff (fun w h => ?_) fun v hv hm => ?_
  · obtain ⟨rest, hrest, h⟩ := Option.bind_eq_some_iff.mp h
    obtain ⟨body, hbody, rfl⟩ := Option.map_eq_some_iff.mp h
    obtain ⟨scheme, rfl, hscheme⟩ := (takes_afterWebScheme? cs).sound rest hrest
    unfold nonEmpty? at hbody
    split at hbody
    · cases hbody
    · next hne =>
        obtain rfl := Option.some.inj hbody
        rw [show (scheme ++ rest).take ((scheme ++ rest).length - rest.length) = scheme from
          readUpTo_append scheme rest]
        refine hscheme.mul (longest_someOver fun h => hne (List.isEmpty_iff.mpr h)) ?_
        intro x hx c t e
        have hlen := congrArg List.length (eq_of_webScheme hx hscheme.mem ⟨_, e.symm⟩)
        rw [e] at hlen
        simp at hlen
  · obtain ⟨scheme, hs, body, hb, rfl⟩ := Language.mem_mul.mp hm
    obtain ⟨more, rfl⟩ := hv
    rw [List.append_assoc]
    obtain ⟨rest, hrest⟩ := Option.isSome_iff_exists.mp
      ((takes_afterWebScheme? _).complete scheme (List.prefix_append scheme (body ++ more)) hs)
    obtain ⟨scheme', e, hscheme⟩ := (takes_afterWebScheme? _).sound rest hrest
    obtain rfl := (longest_webScheme hs (body ++ more)).unique hscheme
    obtain rfl := List.append_cancel_left e
    have hne := takeWhile_ne_nil (List.prefix_append body more) hb
    rw [urlHere?, hrest, Option.bind_some, nonEmpty?, if_neg (fun h => hne (List.isEmpty_iff.mp h))]
    rfl

/-! ## 4. Domains -/

theorem takes_afterTopLabel? (cs : List Char) :
    Takes {w | 2 ≤ w.length ∧ ∀ c ∈ w, foldsToLetter c = true} cs (afterTopLabel? cs) := by
  unfold afterTopLabel?
  refine ⟨fun rest h => ?_, fun v hv hm => ?_⟩
  · split at h
    · next hlong =>
        obtain rfl := Option.some.inj h
        exact ⟨_, List.takeWhile_append_dropWhile.symm, List.takeWhile_prefix _,
          ⟨hlong, fun _ hc => List.mem_takeWhile_imp hc⟩, fun _ hv hm => length_le_takeWhile hv hm.2⟩
    · cases h
  · rw [if_pos (hm.1.trans (length_le_takeWhile hv hm.2))]
    rfl

theorem takeWhile_label (h : IsLabel label) (rest : List Char) :
    (label ++ '.' :: rest).takeWhile isLabelChar = label := by
  rw [List.takeWhile_append_of_pos h.chars, List.takeWhile_cons_of_neg (by decide), List.append_nil]

/-- A label is read up to its point. -/
theorem afterLabel?_eq_some_iff :
    afterLabel? cs = some rest ↔ ∃ label, IsLabel label ∧ cs = label ++ '.' :: rest := by
  unfold afterLabel?
  dsimp only
  constructor
  · intro h
    split at h
    · next rest' hrest =>
        split at h
        · next hends =>
            obtain rfl := Option.some.inj h
            obtain ⟨hfirst, hlast⟩ := Bool.and_eq_true_iff.mp hends
            refine ⟨cs.takeWhile isLabelChar, ⟨fun _ hc => List.mem_takeWhile_imp hc, hfirst, hlast⟩, ?_⟩
            rw [← hrest]
            exact (List.prefix_iff_eq_append.mp (List.takeWhile_prefix _)).symm
        · cases h
    · cases h
  · rintro ⟨label, hlabel, rfl⟩
    rw [takeWhile_label hlabel, List.drop_left, hlabel.first, hlabel.last]
    rfl

/-- A first label is read off a text. -/
theorem begins_of_label (h : IsLabel label) (h' : IsLabel label')
    (hv : label' ++ '.' :: v <+: label ++ '.' :: rest) : label' = label ∧ v <+: rest := by
  obtain ⟨more, e⟩ := hv
  rw [List.append_assoc, List.cons_append] at e
  have hlabels := congrArg (List.takeWhile isLabelChar) e
  rw [takeWhile_label h', takeWhile_label h] at hlabels
  subst hlabels
  exact ⟨rfl, more, (List.cons.inj (List.append_cancel_left e)).2⟩

/-- The host behind a label goes on with it. -/
theorem longest_label (h : IsLabel label) (hrest : Longest (hosts true) rest w) :
    Longest (hosts begun) (label ++ '.' :: rest) (label ++ '.' :: w) := by
  refine ⟨?_, .label h hrest.mem, fun v hv hm => ?_⟩
  · exact (List.prefix_append_right_inj label).mpr ((List.prefix_cons_inj _).mpr hrest.begins)
  · cases hm with
    | top long letters =>
        -- letters cannot go past the point behind the first label
        have hle := length_le_takeWhile (p := isLabelChar) hv fun c hc => by
          simp [isLabelChar, foldsToAlphanum, letters c hc]
        rw [takeWhile_label h] at hle
        rw [List.length_append]
        exact hle.trans (Nat.le_add_right _ _)
    | label isLabel host =>
        obtain ⟨rfl, hv'⟩ := begins_of_label h isLabel hv
        have hle := hrest.longest _ hv' host
        simp only [List.length_append, List.length_cons]
        omega

/-- Where no label leads on to the end of a host, there is the last label at most. -/
theorem takes_lastLabel (begun : Bool)
    (hnone : ∀ label rest, IsLabel label → Host true rest → ¬ label ++ '.' :: rest <+: cs) :
    Takes (hosts begun) cs (if begun then afterTopLabel? cs else none) := by
  have htop {v : List Char} (hv : v <+: cs) (hm : Host begun v) :
      begun = true ∧ 2 ≤ v.length ∧ ∀ c ∈ v, foldsToLetter c = true := by
    cases hm with
    | top long letters => exact ⟨rfl, long, letters⟩
    | label isLabel host => exact absurd hv (hnone _ _ isLabel host)
  refine ⟨fun rest h => ?_, fun v hv hm => ?_⟩
  · split at h
    · next hbegun =>
        subst hbegun
        obtain ⟨w, e, hw⟩ := (takes_afterTopLabel? cs).sound rest h
        exact ⟨w, e, hw.begins, .top hw.mem.1 hw.mem.2, fun v hv hm => hw.longest v hv (htop hv hm).2⟩
    · cases h
  · obtain ⟨rfl, hletters⟩ := htop hv hm
    exact (takes_afterTopLabel? cs).complete v hv hletters

/-- **A host** is read as far as it goes: by label after label as long as that leads to its end, and else by
    its last label. -/
theorem takes_afterDomain? (fuel : Nat) (begun : Bool) (cs : List Char) (hfuel : cs.length ≤ fuel) :
    Takes (hosts begun) cs (afterDomain? fuel begun cs) := by
  induction fuel generalizing begun cs with
  | zero =>
      obtain rfl := List.length_eq_zero_iff.mp (Nat.le_zero.mp hfuel)
      refine takes_lastLabel begun fun label rest _ _ h => ?_
      simp at h
  | succ fuel ih =>
      rw [afterDomain?]
      cases hlabel : afterLabel? cs with
      | none =>
          refine takes_lastLabel begun fun label rest h _ hv => ?_
          obtain ⟨more, rfl⟩ := hv
          rw [afterLabel?_eq_some_iff.mpr ⟨label, h, by rw [List.append_assoc, List.cons_append]⟩] at hlabel
          cases hlabel
      | some rest =>
          obtain ⟨label, h, rfl⟩ := afterLabel?_eq_some_iff.mp hlabel
          rw [List.length_append, List.length_cons] at hfuel
          have hrest := ih true rest (by omega)
          rw [Option.bind_some]
          cases hdomain : afterDomain? fuel true rest with
          | none =>
              refine takes_lastLabel begun fun label' v h' hv hbegins => ?_
              have hsome := hrest.complete v (begins_of_label h h' hbegins).2 hv
              rw [hdomain] at hsome
              cases hsome
          | some left =>
              refine ⟨fun left' hleft => ?_, fun _ _ _ => rfl⟩
              obtain rfl := Option.some.inj hleft
              obtain ⟨w, rfl, hw⟩ := hrest.sound left hdomain
              exact ⟨label ++ '.' :: w, by rw [List.append_assoc, List.cons_append], longest_label h hw⟩

/-! ## 5. Ports and paths -/

theorem longest_skipPort (cs : List Char) : ∃ w, cs = w ++ skipPort cs ∧ Longest (1 + ports) cs w := by
  unfold skipPort
  split
  · next rest =>
      split
      · next hempty =>
          refine ⟨[], rfl, longest_optional_nil ?_⟩
          rintro v hv ⟨digits, hdigits, rfl⟩
          exact takeWhile_ne_nil ((List.prefix_cons_inj _).mp hv) hdigits (List.isEmpty_iff.mp hempty)
      · next hsome =>
          have hne : rest.takeWhile isDigit ≠ [] := fun h => hsome (List.isEmpty_iff.mpr h)
          have hdigits := longest_someOver hne
          refine ⟨':' :: rest.takeWhile isDigit, ?_, Longest.optional ⟨?_, ⟨_, hdigits.mem, rfl⟩, ?_⟩⟩
          · rw [List.cons_append, List.takeWhile_append_dropWhile]
          · exact (List.prefix_cons_inj _).mpr hdigits.begins
          · rintro v hv ⟨digits, hm, rfl⟩
            exact Nat.succ_le_succ (hdigits.longest digits ((List.prefix_cons_inj _).mp hv) hm)
  · next hcolon =>
      refine ⟨[], rfl, longest_optional_nil ?_⟩
      rintro v ⟨more, rfl⟩ ⟨digits, -, rfl⟩
      exact hcolon _ rfl

theorem longest_skipUrlPath (cs : List Char) :
    ∃ w, cs = w ++ skipUrlPath cs ∧ Longest (1 + slashed isUrlChar) cs w := by
  unfold skipUrlPath
  split
  · next rest =>
      exact ⟨'/' :: rest.takeWhile isUrlChar, by rw [List.cons_append, List.takeWhile_append_dropWhile],
        (longest_slashed isUrlChar rest).optional⟩
  · next hslash =>
      refine ⟨[], rfl, longest_optional_nil ?_⟩
      rintro v ⟨more, rfl⟩ ⟨t, rfl, -⟩
      exact hslash _ rfl

/-- The characters of a host. -/
theorem Host.chars (h : Host begun w) : ∀ c ∈ w, isLabelChar c = true ∨ c = '.' := by
  induction h with
  | top long letters => exact fun c hc => .inl (by simp [isLabelChar, foldsToAlphanum, letters c hc])
  | label isLabel host ih =>
      intro c hc
      rcases List.mem_append.mp hc with hc | hc
      · exact .inl (isLabel.chars c hc)
      · rcases List.mem_cons.mp hc with hc | hc
        · exact .inr hc
        · exact ih c hc

theorem Host.ne_nil (h : Host begun w) : w ≠ [] := by
  cases h with
  | top long =>
      rintro rfl
      cases long
  | label => simp

/-- No character of a host begins a port, and none of a host with its port a path. -/
theorem notMem_host (h : w ∈ hosts false) : ':' ∉ w ∧ '/' ∉ w := by
  have hmem {c : Char} (hc : isLabelChar c = false) (hdot : c ≠ '.') : c ∉ w := fun hw =>
    (Host.chars h c hw).elim (fun e => by rw [hc] at e; cases e) hdot
  exact ⟨hmem (by decide) (by decide), hmem (by decide) (by decide)⟩

theorem notMem_withPort (h : w ∈ hosts false * (1 + ports)) : '/' ∉ w := by
  obtain ⟨x, hx, y, hy, rfl⟩ := Language.mem_mul.mp h
  rw [List.mem_append, not_or]
  refine ⟨(notMem_host hx).2, ?_⟩
  rcases (Language.mem_add _ _ _).mp hy with hy | ⟨digits, hdigits, rfl⟩
  · rw [(Language.mem_one y).mp hy]
    exact List.not_mem_nil
  · rw [List.mem_cons, not_or]
    exact ⟨by decide, fun hc => absurd (hdigits.2 _ hc) (by decide)⟩

/-- A host goes on with its port. -/
theorem longest_withPort (h : Longest (hosts false) (v ++ rest) v) (h' : Longest (1 + ports) rest w) :
    Longest (hosts false * (1 + ports)) (v ++ rest) (v ++ w) := by
  refine h.mul h' fun x _ c t e u hu => ?_
  rcases (Language.mem_add _ _ _).mp hu with hu | ⟨digits, -, hu⟩
  · exact nomatch (Language.mem_one _).mp hu
  · obtain ⟨rfl, -⟩ := List.cons.inj hu
    exact (notMem_host h.mem).1 (e ▸ by simp)

/-- A host with its port goes on with its path. -/
theorem longest_withPath (h : Longest (hosts false * (1 + ports)) (v ++ rest) v)
    (h' : Longest (1 + slashed isUrlChar) rest w) : Longest domains (v ++ rest) (v ++ w) := by
  refine h.mul h' fun x _ c t e u hu => ?_
  rcases (Language.mem_add _ _ _).mp hu with hu | ⟨t', hu, -⟩
  · exact nomatch (Language.mem_one _).mp hu
  · obtain ⟨rfl, -⟩ := List.cons.inj hu
    exact notMem_withPort h.mem (e ▸ by simp)

/-- **A domain** is read as far as it goes, with its port and its path. -/
theorem takes_domain (cs : List Char) : Takes domains cs
    ((afterDomain? cs.length false cs).map fun rest => skipUrlPath (skipPort rest)) := by
  have hhost := takes_afterDomain? cs.length false cs (Nat.le_refl _)
  refine ⟨fun left h => ?_, fun v hv hm => ?_⟩
  · obtain ⟨rest, hrest, rfl⟩ := Option.map_eq_some_iff.mp h
    obtain ⟨x, rfl, hx⟩ := hhost.sound rest hrest
    obtain ⟨y, hyrest, hy⟩ := longest_skipPort rest
    obtain ⟨z, hzrest, hz⟩ := longest_skipUrlPath (skipPort rest)
    have hxy := longest_withPort hx hy
    have hall : x ++ rest = (x ++ y) ++ skipPort rest := by rw [List.append_assoc, ← hyrest]
    rw [hall] at hxy ⊢
    exact ⟨x ++ y ++ z, by rw [List.append_assoc _ z, ← hzrest], longest_withPath hxy hz⟩
  · obtain ⟨xy, hxy, z, -, rfl⟩ := Language.mem_mul.mp hm
    obtain ⟨x, hx, y, -, rfl⟩ := Language.mem_mul.mp hxy
    rw [Option.isSome_map]
    rw [List.append_assoc] at hv
    exact hhost.complete x ((List.prefix_append _ _).trans hv) hx

/-! ## 6. Blanks -/

/-- The code points of the blanks. -/
def blankCodes : List Nat :=
  [9, 10, 11, 12, 13, 28, 29, 30, 31, 32, 0x85, 0xA0, 0x1680, 0x2000, 0x2001, 0x2002, 0x2003, 0x2004, 0x2005,
    0x2006, 0x2007, 0x2008, 0x2009, 0x200A, 0x2028, 0x2029, 0x202F, 0x205F, 0x3000]

theorem blankCodes_plain : ∀ n ∈ blankCodes, isLabelChar (Char.ofNat n) = false ∧ isDigit (Char.ofNat n) = false ∧
    isPathChar (Char.ofNat n) = false := by
  decide +kernel

theorem toNat_mem_blankCodes (h : isBlank c = true) : c.toNat ∈ blankCodes := by
  simp only [isBlank, Bool.or_eq_true, Bool.and_eq_true, decide_eq_true_eq, beq_iff_eq] at h
  simp only [blankCodes, List.mem_cons, List.not_mem_nil, or_false]
  omega

/-- A character of a label, a port, a path or a URL. -/
def IsAddressChar (c : Char) : Prop :=
  isLabelChar c = true ∨ isDigit c = true ∨ isPathChar c = true ∨ isUrlChar c = true

theorem IsAddressChar.notBlank (h : IsAddressChar c) : isBlank c = false := by
  by_contra hblank
  rw [Bool.not_eq_false] at hblank
  have hplain := blankCodes_plain c.toNat (toNat_mem_blankCodes hblank)
  rw [Char.ofNat_toNat] at hplain
  obtain ⟨hlabel, hdigit, hpath⟩ := hplain
  rcases h with h | h | h | h
  · cases hlabel.symm.trans h
  · cases hdigit.symm.trans h
  · cases hpath.symm.trans h
  · simp [isUrlChar, hblank] at h

/-- The characters of a host. -/
theorem Host.notBlank (h : Host begun w) : ∀ c ∈ w, isBlank c = false := by
  intro c hc
  rcases h.chars c hc with hc | rfl
  · exact IsAddressChar.notBlank (.inl hc)
  · rfl

theorem notBlank_webScheme (h : w ∈ webSchemes) : ∀ c ∈ w, isBlank c = false := by
  intro c hc
  have hmem : fold c ∈ "https://".toList := by
    have hfold : fold c ∈ w.map fold := List.mem_map_of_mem hc
    rcases h with h | h <;> rw [h] at hfold
    · exact (show "http://".toList ⊆ "https://".toList by decide) hfold
    · exact hfold
  by_cases hletter : 'a' ≤ fold c ∧ fold c ≤ 'z'
  · exact IsAddressChar.notBlank (.inl (by simp [isLabelChar, foldsToAlphanum, foldsToLetter, hletter]))
  · have hplain : "https://".toList.all (fun x => !isBlank x) = true := by decide
    rw [← eq_of_fold hletter]
    simpa using List.all_eq_true.mp hplain _ hmem

theorem notBlank_slashed (hp : ∀ c, p c = true → IsAddressChar c) (h : w ∈ slashed p) :
    ∀ c ∈ w, isBlank c = false := by
  obtain ⟨t, rfl, ht⟩ := h
  exact List.forall_mem_cons.mpr ⟨rfl, fun c hc => (hp c (ht c hc)).notBlank⟩

/-- What may be left out has no blanks if what stands there has none. -/
theorem notBlank_optional {M : Language Char} (h : ∀ v ∈ M, ∀ c ∈ v, isBlank c = false) (hw : w ∈ 1 + M) :
    ∀ c ∈ w, isBlank c = false := by
  rcases (Language.mem_add _ _ _).mp hw with hw | hw
  · rw [(Language.mem_one w).mp hw]
    exact nofun
  · exact h w hw

/-- **No blank** is part of an address. -/
theorem Shape.notBlank {shape : Shape} (h : w ∈ shape.texts) : ∀ c ∈ w, isBlank c = false := by
  cases shape with
  | url =>
      obtain ⟨x, hx, y, hy, rfl⟩ := Language.mem_mul.mp h
      exact List.forall_mem_append.mpr ⟨notBlank_webScheme hx,
        fun c hc => IsAddressChar.notBlank (.inr (.inr (.inr (hy.2 c hc))))⟩
  | domain =>
      obtain ⟨xy, hxy, z, hz, rfl⟩ := Language.mem_mul.mp h
      obtain ⟨x, hx, y, hy, rfl⟩ := Language.mem_mul.mp hxy
      refine List.forall_mem_append.mpr ⟨List.forall_mem_append.mpr ⟨Host.notBlank hx, ?_⟩, ?_⟩
      · refine notBlank_optional ?_ hy
        rintro v ⟨digits, hdigits, rfl⟩
        exact List.forall_mem_cons.mpr ⟨rfl, fun c hc => IsAddressChar.notBlank (.inr (.inl (hdigits.2 c hc)))⟩
      · exact notBlank_optional (fun v hv => notBlank_slashed (fun c hc => .inr (.inr (.inr hc))) hv) hz
  | path => exact notBlank_slashed (fun c hc => .inr (.inr (.inl hc))) h

/-! ## 7. The readers -/

/-- **Each shape is read as far as it goes**, wherever it may stand. -/
theorem Shape.here?_eq_some_iff {shape : Shape} {previous : Option Char} :
    shape.here? previous cs = some w ↔ shape.mayFollow previous = true ∧ Longest shape.texts cs w := by
  cases shape with
  | url => exact urlHere?_eq_some_iff.trans (and_iff_right rfl).symm
  | domain =>
      show domainHere? previous cs = some w ↔ atDomainStart previous = true ∧ Longest domains cs w
      unfold domainHere?
      split
      · next h =>
          rw [and_iff_right h, ← (takes_domain cs).reads, Option.map_map]
          rfl
      · next h => exact iff_of_false nofun fun h' => h h'.1
  | path =>
      show pathHere? previous cs = some w ↔ previous.all isBlank = true ∧ Longest (slashed isPathChar) cs w
      unfold pathHere?
      split
      · next rest =>
          split
          · next h =>
              rw [and_iff_right h, Option.some.injEq]
              refine ⟨fun e => e ▸ longest_slashed isPathChar rest, fun hw => ?_⟩
              exact (longest_slashed isPathChar rest).unique hw
          · next h => exact iff_of_false nofun fun h' => h h'.1
      · next hslash =>
          refine iff_of_false nofun fun h => ?_
          obtain ⟨t, rfl, -⟩ := h.2.mem
          obtain ⟨more, rfl⟩ := h.2.begins
          exact hslash _ rfl

/-- What ends the first label of a text tells its shape. -/
def Shape.mark : Shape → Char
  | .url => ':'
  | .domain => '.'
  | .path => '/'

theorem head?_dropWhile_label {mark : Char} (h : ∀ c ∈ label, isLabelChar c = true)
    (hmark : isLabelChar mark = false) (rest : List Char) :
    ((label ++ mark :: rest).dropWhile isLabelChar).head? = some mark := by
  rw [List.dropWhile_append_of_pos h, List.dropWhile_cons_of_neg (by simp [hmark])]
  rfl

/-- A scheme is letters up to its colon. -/
theorem exists_colon_of_webScheme (h : w ∈ webSchemes) :
    ∃ letters rest, w = letters ++ ':' :: rest ∧ ∀ c ∈ letters, isLabelChar c = true := by
  have hsplit (letters : List Char) (hletters : letters.all (fun c => 'a' ≤ c ∧ c ≤ 'z') = true)
      (hw : w.map fold = letters ++ "://".toList) :
      ∃ letters rest, w = letters ++ ':' :: rest ∧ ∀ c ∈ letters, isLabelChar c = true := by
    obtain ⟨x, y, rfl, hx, hy⟩ := List.map_eq_append_iff.mp hw
    obtain ⟨c, rest, rfl, (hc : fold c = ':'), -⟩ := List.map_eq_cons_iff.mp hy
    obtain rfl : ':' = c := hc.symm.trans (eq_of_fold (by rw [hc]; decide))
    refine ⟨x, rest, rfl, fun c hc => ?_⟩
    have hfold := of_decide_eq_true (List.all_eq_true.mp hletters (fold c) (hx ▸ List.mem_map_of_mem hc))
    simp [isLabelChar, foldsToAlphanum, foldsToLetter, hfold]
  rcases h with h | h
  · exact hsplit "http".toList (by decide) h
  · exact hsplit "https".toList (by decide) h

/-- **What ends the first label** of a text that begins with a shape. -/
theorem Shape.head?_of_texts {shape : Shape} (h : w ∈ shape.texts) (hw : w <+: cs) :
    (cs.dropWhile isLabelChar).head? = some shape.mark := by
  obtain ⟨more, rfl⟩ := hw
  cases shape with
  | url =>
      obtain ⟨scheme, hscheme, body, -, rfl⟩ := Language.mem_mul.mp h
      obtain ⟨letters, rest, rfl, hletters⟩ := exists_colon_of_webScheme hscheme
      rw [List.append_assoc, List.append_assoc]
      exact head?_dropWhile_label hletters (by decide) _
  | domain =>
      obtain ⟨xy, hxy, z, -, rfl⟩ := Language.mem_mul.mp h
      obtain ⟨x, hx, y, -, rfl⟩ := Language.mem_mul.mp hxy
      cases hx with
      | label isLabel host =>
          simp only [List.append_assoc, List.cons_append]
          exact head?_dropWhile_label isLabel.chars (by decide) _
  | path =>
      obtain ⟨t, rfl, -⟩ := h
      rfl

/-- **At one place** stands one shape at most. -/
theorem Shape.eq_of_texts {shape shape' : Shape} (h : w ∈ shape.texts) (hw : w <+: cs)
    (h' : v ∈ shape'.texts) (hv : v <+: cs) : shape = shape' := by
  have hmark := (Shape.head?_of_texts h hw).symm.trans (Shape.head?_of_texts h' hv)
  cases shape <;> cases shape' <;> first | rfl | exact absurd hmark (by decide)

end StepRunner.Step
