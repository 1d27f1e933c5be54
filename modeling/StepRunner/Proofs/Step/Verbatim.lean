import StepRunner.Proofs.Step.Search
import StepRunner.Proofs.Text.Occurrence
import StepRunner.Proofs.Text.Sigma

/-!
# Words that stand on the page

An assertion and an expected outcome look for words in the texts of the page before they look elsewhere. Both sides are
put in lower case first, each on its own, so that words which stand on the page as they are may still not be found:
a capital sigma at their edge may have another lower-case form there than alone.

* `TextTest`: what a computation says to a page that looks for words in its texts first; an assertion (`textTest_check`)
  and the check of the expected outcome (`textTest_validate`) are of this kind;
* `settledByText_iff`: it ends there, successfully, exactly if one of the texts mentions the words;
* `settlesBetween_iff_lower`: so it does, for words in one place of a text, exactly if their own lower-case form is in
  that of the text;
* `verbatim_settles_iff`: for which words that is so whenever they stand on the page.
-/

namespace StepRunner

open Text

namespace Executor

variable {σ : Type} {b : Browser σ} {e : Executor} {d : Drive σ} {words inner content : String}
  {front back : List Char}

theorem mentions_iff {text : String} : mentions text words = true ↔ lower words.toList <:+: lower text.toList :=
  contains_iff_infix

/-! ## 1. Looking for words in the texts of a page -/

/-- The texts of the page are read. If one of them mentions the words, that is all and a success; if none does, something
    else is said or that is a failure. If a reading breaks, the computation does. -/
inductive TextTest (words : String) : List Exchange → Except StepFault Unit → Prop where
  | mentioned {o o' : Except CallFault Reply} {inner content : String} (read : textIn o = .ok inner)
      (read' : textIn o' = .ok content) (mentioned : mentions inner words ∨ mentions content words) :
      TextTest words [⟨.innerText, o⟩, ⟨.textContent, o'⟩] (.ok ())
  | missing {o o' : Except CallFault Reply} {inner content : String} {xs : List Exchange} {r : Except StepFault Unit}
      (read : textIn o = .ok inner) (read' : textIn o' = .ok content) (missing : ¬ mentions inner words)
      (missing' : ¬ mentions content words) (more : xs = [] → r ≠ .ok ()) :
      TextTest words (⟨.innerText, o⟩ :: ⟨.textContent, o'⟩ :: xs) r
  | unread {m : String} : TextTest words [⟨.innerText, .error (.crashed m)⟩] (.error (.page (.crashed m)))
  | unread' {o : Except CallFault Reply} {m : String} :
      TextTest words [⟨.innerText, o⟩, ⟨.textContent, .error (.crashed m)⟩] (.error (.page (.crashed m)))

/-- Reading the texts, and going on with something else if they do not mention the words. -/
theorem textTest_of_else {found found' : String} {other : String → String → Stepping σ Unit}
    (hother : ∀ inner content, Does b (fun xs r => xs = [] → r ≠ .ok ()) (other inner content)) :
    Does b (TextTest words) (do
      let inner ← pageText b .innerText
      let content ← pageText b .textContent
      if mentions inner words then say found
      else if mentions content words then say found'
      else other inner content) := by
  refine does_pageText_bind (fun o inner hread => ?_) fun m => .unread
  refine does_pageText_bind (fun o' content hread' => ?_) fun m => .unread'
  split
  · next hinner => exact Does.note (.mentioned hread hread' (.inl hinner))
  · next hinner =>
      split
      · next hcontent => exact Does.note (.mentioned hread hread' (.inr hcontent))
      · next hcontent => exact (hother inner content).mono fun xs r hmore => .missing hread hread' hinner hcontent hmore

/-- **An assertion** looks for its target in the texts first. -/
theorem textTest_check (e : Executor) (b : Browser σ) (h : words ≠ "") :
    Does b (TextTest words) (e.check b (some words)) := by
  unfold check
  rw [filter_of_ne_empty h]
  refine textTest_of_else fun inner content => ?_
  refine Does.bind (does_firstReaching b _ _ _) (fun xs f _ _ => nofun) fun xs found? hsearch => ?_
  cases found? with
  | none => exact Does.throw fun _ => nofun
  | some candidate =>
      refine Does.note fun hnil => ?_
      generalize locators words = candidates at hsearch
      cases hsearch with
      | found before => simp at hnil

/-- **The check of the expected outcome** looks for it in the texts first. -/
theorem textTest_validate (b : Browser σ) {expected : String} (h : isBlankText expected = false) :
    Does b (TextTest (strip expected)) (validate b expected) := by
  unfold validate
  rw [if_neg (by simp [h])]
  dsimp only
  refine textTest_of_else fun inner content => ?_
  split
  · refine does_pageText_bind (fun o url _ => ?_) fun m _ => nofun
    split
    · exact does_say_bind (Does.pure fun h => nomatch h)
    · exact Does.throw fun _ => nofun
  · exact Does.throw fun _ => nofun

/-! ## 2. What the texts settle -/

/-- What is answered when the inner text of the page is read, and then its text content. -/
def readings (b : Browser σ) (s : σ) : Except CallFault Reply × Except CallFault Reply :=
  ((b.respond s .innerText).1.outcome, (b.respond (b.respond s .innerText).2 .textContent).1.outcome)

/-- The computation succeeds, and says nothing to the page but to read its texts. -/
def SettledByText (m : Stepping σ Unit) (d : Drive σ) : Prop :=
  (m.run d).1 = .ok () ∧ (m.run d).2.trace = d.trace ++ [.innerText, .textContent]

/-- **The texts settle it** exactly if one of them mentions the words. -/
theorem settledByText_iff {m : Stepping σ Unit} (h : Does b (TextTest words) m)
    (hread : textIn (readings b d.browser).1 = .ok inner) (hread' : textIn (readings b d.browser).2 = .ok content) :
    SettledByText m d ↔ mentions inner words ∨ mentions content words := by
  obtain ⟨xs, ⟨htrace, hanswers⟩, htest⟩ := h d
  unfold readings at hread hread'
  rw [SettledByText, htrace]
  generalize (m.run d).1 = r at htest ⊢
  cases htest with
  | mentioned read read' mentioned =>
      obtain ⟨ho, ho', -⟩ := hanswers
      rw [ho, read] at hread
      rw [ho', read'] at hread'
      cases hread
      cases hread'
      exact iff_of_true ⟨rfl, rfl⟩ mentioned
  | missing read read' missing missing' more =>
      obtain ⟨ho, ho', -⟩ := hanswers
      rw [ho, read] at hread
      rw [ho', read'] at hread'
      cases hread
      cases hread'
      refine iff_of_false (fun hsettled => ?_) (not_or.mpr ⟨missing, missing'⟩)
      have hcalls := List.append_cancel_left hsettled.2
      rw [List.map_cons, List.map_cons, List.cons.injEq, List.cons.injEq, List.map_eq_nil_iff] at hcalls
      exact more hcalls.2.2 hsettled.1
  | unread =>
      rw [show _ = _ from hanswers.1] at hread
      cases hread
  | unread' =>
      rw [show _ = _ from hanswers.2.1] at hread'
      cases hread'

/-- The page can be read, except that it may refuse one of its texts, and in the other the words stand between two
    texts. -/
structure HasVerbatim (b : Browser σ) (s : σ) (front words back : List Char) : Prop where
  unbroken : ∀ m, (readings b s).1 ≠ .error (.crashed m) ∧ (readings b s).2 ≠ .error (.crashed m)
  place : ∃ text, text.toList = front ++ words ++ back ∧
    ((readings b s).1 = .ok (.text (some text)) ∨ (readings b s).2 = .ok (.text (some text)))

/-- What is done with a page is settled by its text wherever the words stand between two texts. -/
def SettlesBetween (words front back : List Char) (ask : ∀ {σ : Type}, Browser σ → Stepping σ Unit) : Prop :=
  ∀ {σ : Type} (b : Browser σ) (d : Drive σ), HasVerbatim b d.browser front words back → SettledByText (ask b) d

variable {ask : ∀ {σ : Type}, Browser σ → Stepping σ Unit}

theorem exists_textIn {o : Except CallFault Reply} (h : ∀ m, o ≠ .error (.crashed m)) : ∃ text, textIn o = .ok text := by
  rcases o with (m | m) | reply
  · exact ⟨"", rfl⟩
  · exact absurd rfl (h m)
  · exact ⟨reply.textOrEmpty, rfl⟩

/-- A page that shows a text and does whatever it is asked to. -/
def pageOf (text : String) : Browser Unit where
  respond _ c :=
    match c with
    | .innerText => ({ outcome := .ok (.text (some text)) }, ())
    | .textContent => ({ outcome := .ok (.text (some text)) }, ())
    | _ => ({}, ())

theorem hasVerbatim_pageOf (front back : List Char) (words : List Char) :
    HasVerbatim (pageOf (String.ofList (front ++ words ++ back))) () front words back :=
  ⟨fun _ => ⟨nofun, nofun⟩, _, String.toList_ofList, .inl rfl⟩

/-- **In one place** the text settles it exactly if what the words come to alone is in what it comes to. -/
theorem settlesBetween_iff_lower (hask : ∀ {σ : Type} (b : Browser σ), Does b (TextTest words) (ask b)) :
    SettlesBetween words.toList front back ask ↔ lower words.toList <:+: lower (front ++ words.toList ++ back) := by
  constructor
  · intro hsettles
    have hsettled := hsettles (pageOf (String.ofList (front ++ words.toList ++ back))) { browser := (), now := ⟨0⟩ }
      (hasVerbatim_pageOf front back words.toList)
    have hshown : (Reply.text (some (String.ofList (front ++ words.toList ++ back)))).textOrEmpty.toList =
        front ++ words.toList ++ back := String.toList_ofList
    rwa [settledByText_iff (hask _) rfl rfl, or_self, mentions_iff, hshown] at hsettled
  · intro hinfix σ b d hpage
    obtain ⟨inner, hinner⟩ := exists_textIn fun m => (hpage.unbroken m).1
    obtain ⟨content, hcontent⟩ := exists_textIn fun m => (hpage.unbroken m).2
    obtain ⟨text, hplace, hread⟩ := hpage.place
    have hfound : mentions text words = true := by rwa [mentions_iff, hplace]
    rw [settledByText_iff (hask b) hinner hcontent]
    rcases hread with hread | hread
    · rw [hread] at hinner
      cases hinner
      exact .inl hfound
    · rw [hread] at hcontent
      cases hcontent
      exact .inr hfound

theorem settlesBetween_of_not_turns (hask : ∀ {σ : Type} (b : Browser σ), Does b (TextTest words) (ask b))
    (h : ¬ SigmaTurns front words.toList back) : SettlesBetween words.toList front back ask :=
  (settlesBetween_iff_lower hask).mpr (lower_infix_of_not_turns h)

/-- **In every place** it does so if no sigma of the words is open. -/
theorem settlesBetween_iff (hask : ∀ {σ : Type} (b : Browser σ), Does b (TextTest words) (ask b)) :
    (∀ front back, SettlesBetween words.toList front back ask) ↔ ¬ HasOpenSigma words.toList := by
  rw [← lower_infix_iff]
  exact forall_congr' fun front => forall_congr' fun back => settlesBetween_iff_lower hask

/-- **Words that stand on the page** settle an assertion, and an expected outcome, wherever they stand between texts
    that turn no capital sigma in them: the one text may be read and have them, the other may be anything or be
    refused. So they do in every place exactly if none of their sigmas is open. -/
theorem verbatim_settles_iff (e : Executor) {step : ParsedStep} {target expected : String}
    (haction : step.action = .assert) (htarget : step.target = some target) (hne : target ≠ "")
    (hfilled : isBlankText expected = false) :
    (∀ front back, ¬ SigmaTurns front target.toList back →
      SettlesBetween target.toList front back fun b => e.execute b step) ∧
    ((∀ front back, SettlesBetween target.toList front back fun b => e.execute b step) ↔
      ¬ HasOpenSigma target.toList) ∧
    (∀ front back, ¬ SigmaTurns front (trim expected.toList) back →
      SettlesBetween (trim expected.toList) front back fun b => validate b expected) ∧
    ((∀ front back, SettlesBetween (trim expected.toList) front back fun b => validate b expected) ↔
      ¬ HasOpenSigma (trim expected.toList)) := by
  have hstep {σ : Type} (b : Browser σ) : Does b (TextTest target) (e.execute b step) := by
    unfold execute
    rw [haction, htarget]
    exact textTest_check e b hne
  have hstrip : (strip expected).toList = trim expected.toList := String.toList_ofList
  have houtcome {σ : Type} (b : Browser σ) : Does b (TextTest (strip expected)) (validate b expected) :=
    textTest_validate b hfilled
  rw [← hstrip]
  exact ⟨fun _ _ => settlesBetween_of_not_turns hstep, settlesBetween_iff hstep,
    fun _ _ => settlesBetween_of_not_turns houtcome, settlesBetween_iff houtcome⟩

/-- An assertion about a word that begins and ends in a sigma. -/
def assertWise : ParsedStep := { action := .assert, sentence := "Check 'ΣΟΦΟΣ'", target := some "ΣΟΦΟΣ" }

/-- Between other words, it is found; so is what is expected, although a letter comes to two. -/
theorem verbatim_settles_wise : (assertWise.action = .assert ∧ assertWise.target = some "ΣΟΦΟΣ" ∧ "ΣΟΦΟΣ" ≠ "" ∧
      isBlankText " İZMİR " = false) ∧
    SettledByText (({} : Executor).execute (pageOf "Ο ΣΟΦΟΣ ΛΟΓΟΣ") assertWise) { browser := (), now := ⟨0⟩ } ∧
    SettledByText (validate (pageOf "ΟΔΟΣ İZMİRΣ") " İZMİR ") { browser := (), now := ⟨0⟩ } := by
  have hne : "ΣΟΦΟΣ" ≠ "" := by decide
  have hfilled : isBlankText " İZMİR " = false := by decide +kernel
  obtain ⟨hstep, -, houtcome, -⟩ := verbatim_settles_iff {} (show assertWise.action = .assert from rfl) rfl hne hfilled
  refine ⟨⟨rfl, rfl, hne, hfilled⟩, ?_, ?_⟩
  · refine hstep "Ο ".toList " ΛΟΓΟΣ".toList (lowerIn_eq_lower_iff.mp (by decide +kernel)) _ _ ?_
    exact ⟨fun _ => ⟨nofun, nofun⟩, _, by decide +kernel, .inl rfl⟩
  · refine houtcome "ΟΔΟΣ ".toList "Σ".toList (lowerIn_eq_lower_iff.mp (by decide +kernel)) _ _ ?_
    exact ⟨fun _ => ⟨nofun, nofun⟩, _, by decide +kernel, .inl rfl⟩

end Executor

end StepRunner
