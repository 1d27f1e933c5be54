import StepRunner.Proofs.Text.Longest

/-!
# What is dropped at the ends of a text

* `exists_of_dropWhile`, `exists_of_dropRightWhile`: a text is what is left of it, with a run over the class at one
  end;
* `dropRightWhile_run`: what is left in front of a run;
* `eq_trim`: a text is its trimmed text between blanks, and `trim_eq_self_of_ends`, `trim_eq_nil_iff` say when that
  is the whole of it or nothing.
-/

namespace StepRunner.Text

variable {p : Char → Bool} {c : Char} {cs rest w : List Char}

/-! ## 1. Runs over a class -/

theorem exists_of_dropWhile (p : Char → Bool) (cs : List Char) : ∃ w, cs = w ++ cs.dropWhile p ∧
    (∀ c ∈ w, p c = true) ∧ ∀ c ∈ (cs.dropWhile p).head?, p c = false := by
  refine ⟨cs.takeWhile p, (List.takeWhile_append_dropWhile).symm, fun c hc => List.mem_takeWhile_imp hc, fun c hc => ?_⟩
  have hstop := List.head?_dropWhile_not p cs
  rw [Option.mem_def.mp hc] at hstop
  exact hstop

theorem dropRightWhile_run (hrest : ∀ c ∈ rest.getLast?, p c = false) (hw : ∀ c ∈ w, p c = true) :
    dropRightWhile p (rest ++ w) = rest := by
  unfold dropRightWhile
  rw [List.reverse_append, dropWhile_run (fun c hc => hw c (List.mem_reverse.mp hc)), List.reverse_reverse]
  rwa [List.head?_reverse]

theorem dropRightWhile_eq_self (h : ∀ c ∈ cs.getLast?, p c = false) : dropRightWhile p cs = cs := by
  have hrun := dropRightWhile_run (w := []) h nofun
  rwa [List.append_nil] at hrun

theorem exists_of_dropRightWhile (p : Char → Bool) (cs : List Char) : ∃ w, cs = dropRightWhile p cs ++ w ∧
    (∀ c ∈ w, p c = true) ∧ ∀ c ∈ (dropRightWhile p cs).getLast?, p c = false := by
  obtain ⟨w, e, hw, hstop⟩ := exists_of_dropWhile p cs.reverse
  refine ⟨w.reverse, ?_, fun c hc => hw c (List.mem_reverse.mp hc), fun c hc => hstop c ?_⟩
  · have hreverse := congrArg List.reverse e
    rwa [List.reverse_reverse, List.reverse_append] at hreverse
  · rwa [dropRightWhile, List.getLast?_reverse] at hc

/-- What stands in front of a character out of the class is left as it is. -/
theorem dropRightWhile_append_cons (hc : p c = false) (x y : List Char) :
    dropRightWhile p (x ++ c :: y) = x ++ c :: dropRightWhile p y := by
  obtain ⟨w, e, hw, hstop⟩ := exists_of_dropRightWhile p y
  have hplace : x ++ c :: y = x ++ c :: dropRightWhile p y ++ w := by
    conv_lhs => rw [e]
    simp
  rw [hplace]
  refine dropRightWhile_run (fun d hd => ?_) hw
  rw [List.getLast?_append_of_ne_nil _ (List.cons_ne_nil _ _), List.getLast?_cons] at hd
  cases hlast : (dropRightWhile p y).getLast? with
  | none =>
      rw [hlast] at hd
      obtain rfl := Option.some.inj hd
      exact hc
  | some e =>
      rw [hlast] at hd
      exact hstop d (hlast.trans hd)

/-! ## 2. Blanks -/

/-- A text is its trimmed text between blanks. -/
theorem eq_trim (cs : List Char) : ∃ front back, cs = front ++ trim cs ++ back ∧
    (∀ c ∈ front, isBlank c = true) ∧ ∀ c ∈ back, isBlank c = true := by
  obtain ⟨front, e, hfront, -⟩ := exists_of_dropWhile isBlank cs
  obtain ⟨back, e', hback, -⟩ := exists_of_dropRightWhile isBlank (trimLeft cs)
  refine ⟨front, back, ?_, hfront, hback⟩
  conv_lhs => rw [e]
  rw [List.append_assoc]
  exact congrArg (front ++ ·) e'

/-- A text without blanks at its ends is trimmed. -/
theorem trim_eq_self_of_ends (hfirst : ∀ c ∈ cs.head?, isBlank c = false) (hlast : ∀ c ∈ cs.getLast?, isBlank c = false) :
    trim cs = cs := by
  have hleft : trimLeft cs = cs := dropWhile_run (w := []) nofun hfirst
  rw [trim, hleft]
  exact dropRightWhile_eq_self hlast

theorem trim_eq_nil_iff : trim cs = [] ↔ allBlank cs = true := by
  constructor
  · intro h
    obtain ⟨front, back, e, hfront, hback⟩ := eq_trim cs
    rw [h, List.append_nil] at e
    rw [e]
    exact List.all_eq_true.mpr (List.forall_mem_append.mpr ⟨hfront, hback⟩)
  · intro h
    have hleft : trimLeft cs = [] := List.dropWhile_eq_nil_iff.mpr (List.all_eq_true.mp h)
    rw [trim, hleft]
    rfl

end StepRunner.Text
