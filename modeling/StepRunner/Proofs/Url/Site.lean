import Mathlib.Data.List.DropRight
import StepRunner.Proofs.Step.Navigation

/-!
# Where a relative address leads

A `Site` is a scheme and an authority, and a URL is one of the site if it begins with them (`Site.Has`). An
address that begins with a slash is relative to a base, and is to stay on the site of the base. It is read
without the slashes in front, as a reference of its own, and leaves the site exactly if this has another
scheme, or an authority of its own that is not the one of the site (`Site.IsLeftBy`).

* `ofText_has`: scheme and authority of a URL of a site;
* `text_has`: a reference with scheme and authority is a URL of their site;
* `join_has_iff`: what is joined with a URL of a site;
* `relative_stays_iff`: where a relative address leads.
-/

namespace StepRunner.Url

open Text

/-! ## 1. Sites -/

/-- A scheme, and what stands between its two slashes and the next one: a host, with or without a port. -/
structure Site where
  scheme : List Char
  authority : List Char

/-- A site of the web, in characters that neither end an authority nor are passed over. -/
structure Site.IsWeb (s : Site) : Prop where
  scheme : s.scheme = "http".toList ∨ s.scheme = "https".toList
  filled : s.authority ≠ []
  chars : ∀ c ∈ s.authority, endsAuthority c = false ∧ c ≠ '\t' ∧ c ≠ '\r' ∧ c ≠ '\n'

/-- What the URLs of a site begin with. -/
def Site.root (s : Site) : List Char := s.scheme ++ "://".toList ++ s.authority

/-- The URL is one of the site: it begins with the root, and nothing goes on with the authority. -/
def Site.Has (s : Site) (url : List Char) : Prop :=
  ∃ rest, url = s.root ++ rest ∧ ∀ c ∈ rest.head?, endsAuthority c = true

/-- The reference leads away from the site: it has another scheme, or an authority that is not the one of
    the site. -/
def Site.IsLeftBy (s : Site) (text : List Char) : Prop :=
  ∃ r, Reference.ofText s.scheme text = .ok r ∧
    (r.scheme ≠ s.scheme ∨ r.authority ≠ [] ∧ r.authority ≠ s.authority)

variable {s : Site} {r b : Reference} {c : Char} {given authority base text rest cs url path : List Char}

theorem Site.IsWeb.scheme_ne_nil (hs : s.IsWeb) : s.scheme ≠ [] := by
  rcases hs.scheme with h | h
  · rw [h]
    decide
  · rw [h]
    decide

/-! ## 2. The parts of a reference -/

/-- An authority stands behind two slashes, and goes as far as nothing ends it. -/
theorem splitAuthority_eq_ok (h : splitAuthority cs = .ok (authority, rest)) :
    (∃ tail, cs = '/' :: '/' :: tail ∧ authority = tail.takeWhile (!endsAuthority ·)) ∨
      (∀ tail, cs ≠ '/' :: '/' :: tail) ∧ authority = [] := by
  unfold splitAuthority at h
  split at h
  · next tail =>
      dsimp only at h
      cases hbrackets : checkBrackets (tail.takeWhile (!endsAuthority ·)) with
      | error f =>
          rw [hbrackets] at h
          cases h
      | ok _ =>
          rw [hbrackets] at h
          cases h
          exact .inl ⟨tail, rfl, rfl⟩
  · next hslashes =>
      cases h
      exact .inr ⟨hslashes, rfl⟩

/-- **Scheme and authority** of a reference are what its text starts with. -/
theorem ofText_eq_ok (h : Reference.ofText given text = .ok r) :
    r.scheme = (splitScheme given (clean text)).1 ∧
      ∃ rest, splitAuthority (splitScheme given (clean text)).2 = .ok (r.authority, rest) := by
  unfold Reference.ofText at h
  cases ha : splitAuthority (splitScheme given (clean text)).2 with
  | error f =>
      simp only [ha] at h
      cases h
  | ok split =>
      simp only [ha] at h
      cases hd : checkDelimiters split.1 with
      | error f =>
          simp only [bind, Except.bind, hd] at h
          cases h
      | ok _ =>
          simp only [bind, Except.bind, hd] at h
          cases h
          exact ⟨rfl, _, rfl⟩

/-- No character of an authority ends one. -/
theorem authority_plain (h : Reference.ofText given text = .ok r) : ∀ c ∈ r.authority, endsAuthority c = false := by
  obtain ⟨-, rest, ha⟩ := ofText_eq_ok h
  rcases splitAuthority_eq_ok ha with ⟨tail, -, htail⟩ | ⟨-, hnil⟩
  · rw [htail]
    exact fun c hc => by simpa using List.mem_takeWhile_imp hc
  · rw [hnil]
    exact List.forall_mem_nil _

/-! ## 3. The URLs of a site -/

theorem splitScheme_root (hs : s.IsWeb) (given rest : List Char) :
    splitScheme given (s.root ++ rest) = (s.scheme, '/' :: '/' :: (s.authority ++ rest)) := by
  unfold Site.root
  rw [List.append_assoc, List.append_assoc]
  rcases hs.scheme with h | h
  · rw [h]
    rfl
  · rw [h]
    rfl

/-- The root of a site is as it is, whatever is passed over behind it. -/
theorem clean_root (hs : s.IsWeb) (hrest : ∀ c ∈ rest.head?, endsAuthority c = true) :
    ∃ rest', clean (s.root ++ rest) = s.root ++ rest' ∧ ∀ c ∈ rest'.head?, endsAuthority c = true := by
  have hfront : (s.root ++ rest).dropWhile (·.toNat ≤ 32) = s.root ++ rest := by
    unfold Site.root
    rcases hs.scheme with h | h
    · rw [h]
      rfl
    · rw [h]
      rfl
  have hscheme : ∀ c ∈ s.scheme ++ "://".toList, (!(c == '\t' || c == '\r' || c == '\n')) = true := by
    refine List.all_eq_true.mp ?_
    rcases hs.scheme with h | h
    · rw [h]
      decide
    · rw [h]
      decide
  have hroot : s.root.filter (fun c => !(c == '\t' || c == '\r' || c == '\n')) = s.root := by
    refine List.filter_eq_self.mpr (List.forall_mem_append.mpr ⟨hscheme, fun c hc => ?_⟩)
    simpa [and_assoc] using (hs.chars c hc).2
  refine ⟨_, by rw [clean, hfront, List.filter_append, hroot], ?_⟩
  cases rest with
  | nil =>
      intro c hc
      cases hc
  | cons c rest =>
      have hends := hrest c rfl
      have hkept : (!(c == '\t' || c == '\r' || c == '\n')) = true := by
        simp only [endsAuthority, Bool.or_eq_true, beq_iff_eq] at hends
        rcases hends with (rfl | rfl) | rfl <;> rfl
      rw [List.filter_cons_of_pos (by simpa using hkept)]
      rintro d ⟨⟩
      exact hends

/-- **A URL of a site** has its scheme and its authority. -/
theorem ofText_has (hs : s.IsWeb) (h : s.Has url) (hr : Reference.ofText given url = .ok r) :
    r.scheme = s.scheme ∧ r.authority = s.authority := by
  obtain ⟨rest, rfl, hrest⟩ := h
  obtain ⟨rest', hclean, hrest'⟩ := clean_root hs hrest
  obtain ⟨hscheme, left, ha⟩ := ofText_eq_ok hr
  rw [hclean, splitScheme_root hs] at hscheme ha
  refine ⟨hscheme, ?_⟩
  rcases splitAuthority_eq_ok ha with ⟨tail, htail, hauthority⟩ | ⟨hslashes, -⟩
  · cases htail
    rw [hauthority]
    exact takeWhile_run (fun c hc => by rw [(hs.chars c hc).1]; rfl) fun c hc => by rw [hrest' c hc]; rfl
  · exact absurd rfl (hslashes _)

/-- A URL is one of one site with this scheme. -/
theorem Site.Has.authority_eq (h : s.Has url) (h' : Site.Has ⟨s.scheme, authority⟩ url)
    (hs : ∀ c ∈ s.authority, endsAuthority c = false) (ha : ∀ c ∈ authority, endsAuthority c = false) :
    authority = s.authority := by
  obtain ⟨rest, e, hrest⟩ := h
  obtain ⟨rest', e', hrest'⟩ := h'
  have hends {x y : List Char} (hx : ∀ c ∈ x, endsAuthority c = false) (hy : ∀ c ∈ y.head?, endsAuthority c = true) :
      (x ++ y).takeWhile (!endsAuthority ·) = x :=
    takeWhile_run (fun c hc => by rw [hx c hc]; rfl) fun c hc => by rw [hy c hc]; rfl
  have hsame : authority ++ rest' = s.authority ++ rest := by
    have hroot := e'.symm.trans e
    unfold Site.root at hroot
    rw [List.append_assoc _ authority, List.append_assoc _ s.authority] at hroot
    exact List.append_cancel_left hroot
  rw [← hends ha hrest', hsame, hends hs hrest]

/-- What stands behind the authority of a reference does not go on with it. -/
theorem endsAuthority_of_tail (path query fragment : List Char) :
    ∀ c ∈ ((if path.isEmpty || path.head? == some '/' then path else '/' :: path) ++ delimited '?' query ++
      delimited '#' fragment).head?, endsAuthority c = true := by
  intro c hc
  unfold delimited at hc
  cases path with
  | cons d path =>
      split at hc
      · next hslash =>
          obtain rfl : d = '/' := by simpa using hslash
          cases hc
          rfl
      · cases hc
        rfl
  | nil =>
      cases query with
      | cons d query =>
          cases hc
          rfl
      | nil =>
          cases fragment with
          | cons d fragment =>
              cases hc
              rfl
          | nil => cases hc

/-- **A reference with scheme and authority** is a URL of their site. -/
theorem text_has (hscheme : r.scheme ≠ []) (hauthority : r.authority ≠ []) : Site.Has ⟨r.scheme, r.authority⟩ r.text := by
  refine ⟨_, ?_, endsAuthority_of_tail (r.path ++ delimited ';' r.parameters) r.query r.fragment⟩
  have hs : r.scheme.isEmpty = false := List.isEmpty_eq_false_iff.mpr hscheme
  have ha : r.authority.isEmpty = false := List.isEmpty_eq_false_iff.mpr hauthority
  unfold Reference.text Site.root
  simp only [hs, ha, Bool.not_false, Bool.true_or, if_true, Bool.false_eq_true, if_false, List.append_assoc]
  rfl

theorem has_of_parts (hs : s.IsWeb) (hscheme : r.scheme = s.scheme) (hauthority : r.authority = s.authority) :
    s.Has r.text := by
  have hhas := text_has (hscheme ▸ hs.scheme_ne_nil) (hauthority ▸ hs.filled)
  rwa [hscheme, hauthority] at hhas

/-! ## 4. Joining -/

/-- **What a reference stands for** on a site: a URL of the site, unless it leads away. -/
theorem joinTo_has_iff (hs : s.IsWeb) (hscheme : b.scheme = s.scheme) (hauthority : b.authority = s.authority)
    (hr : Reference.ofText s.scheme text = .ok r) :
    s.Has (joinTo b r text) ↔ ¬ (r.scheme ≠ s.scheme ∨ r.authority ≠ [] ∧ r.authority ≠ s.authority) := by
  have hweb : isIn relativeSchemes s.scheme = true ∧ isIn authoritySchemes s.scheme = true := by
    rcases hs.scheme with h | h
    · rw [h]
      decide +kernel
    · rw [h]
      decide +kernel
  unfold joinTo
  by_cases hother : r.scheme = s.scheme
  · rw [if_neg (by simp [hother, hscheme, hweb.1])]
    dsimp only
    rw [hother, hweb.2, Bool.true_and, if_pos rfl, hauthority]
    by_cases hown : r.authority = []
    · refine iff_of_true ?_ (by simp [hown])
      -- whatever path there is, the reference is completed by the authority of the site
      rw [if_neg (by simp [hown])]
      split
      · exact has_of_parts hs rfl rfl
      · exact has_of_parts hs rfl rfl
    · have hhas : Site.Has ⟨s.scheme, r.authority⟩ r.text :=
        hother ▸ text_has (hother ▸ hs.scheme_ne_nil) hown
      rw [if_pos (by simp [hown])]
      refine ⟨fun hhas' => ?_, fun hstays => ?_⟩
      · have hsame := hhas'.authority_eq hhas (fun c hc => (hs.chars c hc).1) (authority_plain hr)
        simp [hsame]
      · have hsame : r.authority = s.authority := by simpa [hown] using hstays
        exact has_of_parts hs hother hsame
  · rw [if_pos (by simp [hother, hscheme])]
    refine iff_of_false (fun hhas => hother ?_) (fun h => h (.inl hother))
    exact (ofText_has hs hhas hr).1

theorem not_isLeftBy_nil (s : Site) : ¬ s.IsLeftBy [] := by
  rintro ⟨r, hr, hleft⟩
  cases hr
  simp at hleft

theorem clean_cons (hc : 32 < c.toNat) (cs : List Char) : ∃ cs', clean (c :: cs) = c :: cs' := by
  have hkept : (!(c == '\t' || c == '\r' || c == '\n')) = true := by
    have hne {x : Char} (hx : x.toNat ≤ 32) : c ≠ x := by
      rintro rfl
      omega
    simp [hne (x := '\t') (by decide), hne (x := '\r') (by decide), hne (x := '\n') (by decide)]
  rw [clean, List.dropWhile_cons_of_neg (by simpa using hc), List.filter_cons_of_pos (by simpa using hkept)]
  exact ⟨_, rfl⟩

/-- **A plain path** stays on every site: no colon stands in it, and it begins neither with a slash nor with
    a character that is passed over. -/
theorem not_isLeftBy_plain (hslash : text.head? ≠ some '/') (hhead : ∀ c ∈ text.head?, 32 < c.toNat)
    (hcolon : ':' ∉ text) : ¬ s.IsLeftBy text := by
  rintro ⟨r, hr, hleft⟩
  obtain ⟨hscheme, rest, ha⟩ := ofText_eq_ok hr
  have hgiven : splitScheme s.scheme (clean text) = (s.scheme, clean text) := by
    have hclean : ':' ∉ clean text := fun h =>
      hcolon ((List.dropWhile_sublist _).subset (List.mem_of_mem_filter h))
    rw [splitScheme, cut?, if_neg (by simpa using hclean)]
  rw [hgiven] at hscheme ha
  have hnone : r.authority = [] := by
    rcases splitAuthority_eq_ok ha with ⟨tail, htail, -⟩ | ⟨-, hnil⟩
    · cases text with
      | nil => cases htail
      | cons c cs =>
          obtain ⟨cs', hcs'⟩ := clean_cons (hhead c rfl) cs
          obtain ⟨rfl, -⟩ := List.cons.inj (hcs'.symm.trans htail)
          exact absurd rfl hslash
    · exact hnil
  exact hleft.elim (fun h => h hscheme) fun h => h.1 hnone

/-- **What is joined with a URL of a site** is one of the site, unless it leads away. -/
theorem join_has_iff (hs : s.IsWeb) (hbase : s.Has base) (h : join base text = .ok url) :
    s.Has url ↔ ¬ s.IsLeftBy text := by
  unfold join at h
  have hne : base.isEmpty = false := by
    obtain ⟨rest, rfl, -⟩ := hbase
    simp [Site.root]
  rw [if_neg (by simp [hne])] at h
  split at h
  · next hempty =>
      obtain rfl := Except.ok.inj h
      obtain rfl := List.isEmpty_iff.mp hempty
      exact iff_of_true hbase (not_isLeftBy_nil s)
  · cases hb : Reference.ofText [] base with
    | error f =>
        rw [hb] at h
        cases h
    | ok b =>
        obtain ⟨hscheme, hauthority⟩ := ofText_has hs hbase hb
        cases hr : Reference.ofText b.scheme text with
        | error f =>
            simp only [bind, Except.bind, hb, hr] at h
            cases h
        | ok r =>
            simp only [bind, Except.bind, hb, hr] at h
            obtain rfl := Except.ok.inj h
            rw [hscheme] at hr
            rw [joinTo_has_iff hs hscheme hauthority hr, Site.IsLeftBy]
            simp [hr]

/-! ## 5. Relative addresses -/

/-- With one slash at its end, the URL of a site is still one of it. -/
theorem has_rooted (hs : s.IsWeb) (hpath : ∀ c ∈ path.head?, c = '/') :
    s.Has (dropRightWhile (· == '/') (s.root ++ path) ++ ['/']) := by
  obtain ⟨front, c, hroot⟩ : ∃ front c, s.authority = front ++ [c] :=
    ⟨_, _, (List.dropLast_append_getLast hs.filled).symm⟩
  have hc : (c == '/') = false := by
    have hplain := (hs.chars c (by simp [hroot])).1
    simp only [endsAuthority, Bool.or_eq_false_iff] at hplain
    exact hplain.1.1
  have hkept : dropRightWhile (· == '/') (s.root ++ path) = s.root ++ dropRightWhile (· == '/') path := by
    have hdrop := Text.dropRightWhile_append_cons (p := (· == '/')) hc (s.scheme ++ "://".toList ++ front) path
    simpa [Site.root, hroot] using hdrop
  refine ⟨dropRightWhile (· == '/') path ++ ['/'], by rw [hkept, List.append_assoc], fun d hd => ?_⟩
  have hprefix : dropRightWhile (· == '/') path <+: path := List.rdropWhile_prefix (p := (· == '/')) (l := path)
  cases hrest : dropRightWhile (· == '/') path with
  | nil =>
      rw [hrest] at hd
      cases hd
      rfl
  | cons x rest =>
      rw [hrest] at hd hprefix
      obtain rfl : x = d := Option.some.inj hd
      obtain ⟨more, rfl⟩ := hprefix
      rw [hpath x rfl]
      rfl

end StepRunner.Url

namespace StepRunner.Executor

open Text Url

variable {s : Site} {path : List Char}

/-- A relative address is joined with its base, without the slashes in front. -/
theorem join_of_resolve {e : Executor} {target base url : String} (hslash : (trim target.toList).head? = some '/')
    (hbase : e.baseUrl = some base) (hne : base ≠ "") (h : e.resolve target = .ok url) :
    Url.join (dropRightWhile (· == '/') base.toList ++ ['/']) ((trim target.toList).dropWhile (· == '/')) =
      .ok url.toList := by
  have hscheme (scheme : List Char) (hhead : scheme.head? = some 'h') :
      (after? scheme (trim target.toList)).isSome = false := by
    rw [← Bool.not_eq_true, isSome_after?]
    rintro ⟨more, hmore⟩
    obtain ⟨tail, rfl⟩ := List.head?_eq_some_iff.mp hhead
    rw [← hmore] at hslash
    cases hslash
  unfold resolve at h
  dsimp only at h
  rw [hscheme "http://".toList rfl, hscheme "https://".toList rfl, if_neg nofun,
    if_pos hslash, hbase, Option.filter_some, if_pos (by simpa using hne)] at h
  cases hjoin : Url.join (dropRightWhile (· == '/') base.toList ++ ['/']) ((trim target.toList).dropWhile (· == '/')) with
  | error f =>
      simp only [hjoin] at h
      cases h
  | ok joined =>
      simp only [hjoin] at h
      cases h
      rw [String.toList_ofList]

/-- **A relative address stays on the site** of its base, unless it leads away from it without the slashes in
    front; a plain path does not. -/
theorem relative_stays_iff (e : Executor) {target url : String} (hs : s.IsWeb) (hpath : ∀ c ∈ path.head?, c = '/')
    (hbase : e.baseUrl = some (String.ofList (s.root ++ path))) (hslash : (trim target.toList).head? = some '/')
    (h : e.resolve target = .ok url) :
    (s.Has url.toList ↔ ¬ s.IsLeftBy ((trim target.toList).dropWhile (· == '/'))) ∧
      ((∀ c ∈ ((trim target.toList).dropWhile (· == '/')).head?, 32 < c.toNat) → ':' ∉ target.toList →
        s.Has url.toList) := by
  have hne : String.ofList (s.root ++ path) ≠ "" := by
    intro hempty
    have hnil := congrArg String.toList hempty
    rw [String.toList_ofList] at hnil
    simp [Site.root] at hnil
  have hjoin := join_of_resolve hslash hbase hne h
  rw [String.toList_ofList] at hjoin
  have hiff := join_has_iff hs (has_rooted hs hpath) hjoin
  refine ⟨hiff, fun hhead hcolon => hiff.mpr (not_isLeftBy_plain ?_ hhead fun hmem => hcolon ?_)⟩
  · intro hslash'
    have hdropped := List.head?_dropWhile_not (· == '/') (trim target.toList)
    rw [hslash'] at hdropped
    cases hdropped
  · obtain ⟨front, back, e, -, -⟩ := Text.eq_trim target.toList
    rw [e]
    exact List.mem_append_left back (List.mem_append_right front ((List.dropWhile_sublist _).subset hmem))

/-- The site of a shop. -/
def shop : Site := ⟨"https".toList, "shop.test".toList⟩

/-- **A path leads to another site**, since without the slash in front it is a URL. -/
theorem shop_isLeftBy_url :
    shop.IsWeb ∧ shop.IsLeftBy "https://other.test/cart".toList ∧
      resolve { baseUrl := some "https://shop.test/de" } "/https://other.test/cart" = .ok "https://other.test/cart" ∧
      ¬ shop.Has "https://other.test/cart".toList := by
  have hchars : shop.authority.all (fun c => !endsAuthority c && c != '\t' && c != '\r' && c != '\n') = true := by
    decide +kernel
  have hs : shop.IsWeb := ⟨.inr rfl, by decide, fun c hc => by simpa [and_assoc] using List.all_eq_true.mp hchars c hc⟩
  have hleft : shop.IsLeftBy "https://other.test/cart".toList := by
    refine ⟨⟨"https".toList, "other.test".toList, "/cart".toList, [], [], []⟩, by rfl, .inr (by decide +kernel)⟩
  have hresolve : resolve { baseUrl := some "https://shop.test/de" } "/https://other.test/cart" =
      .ok "https://other.test/cart" := by
    rfl
  have hbase : some "https://shop.test/de" = some (String.ofList (shop.root ++ "/de".toList)) := by
    decide +kernel
  have hpath : ∀ c ∈ "/de".toList.head?, c = '/' := fun c hc => (Option.some.inj hc).symm
  have hstays := relative_stays_iff _ hs hpath hbase (by decide +kernel) hresolve
  exact ⟨hs, hleft, hresolve, fun hhas => hstays.1.mp hhas hleft⟩

end StepRunner.Executor
