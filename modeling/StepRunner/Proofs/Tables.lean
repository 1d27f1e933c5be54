import Mathlib.Data.List.Basic

/-!
# Tables

A table is a list of keys and values, and looking up in it goes by the first entry of a key. Results,
fields and files are kept in tables; each has a function of its own that puts a value into the place of
its key, or at the end, and all of them are of one form.

* `lookup_of_put`: what such a function makes of a table;
* `exists_lookup_of_mem`: a key of a table has a value there.
-/

namespace StepRunner

variable {α β : Type*} [DecidableEq α] [BEq α] [LawfulBEq α]

/-- Looking up in a table goes by its first entry. -/
theorem lookup_cons_ite (e : α × β) (table : List (α × β)) (k : α) :
    (e :: table).lookup k = if k = e.1 then some e.2 else table.lookup k := by
  obtain ⟨i, v⟩ := e
  by_cases h : k = i
  · subst h
    rw [List.lookup_cons_self, if_pos rfl]
  · have hb : (k == i) = false := beq_false_of_ne h
    rw [List.lookup_cons, hb, if_neg h]

/-- **Putting a value into its place**, or at the end, changes the value of its key alone. -/
theorem lookup_of_put {key : α} {value : β} (put : List (α × β) → List (α × β))
    (hnil : put [] = [(key, value)])
    (hcons : ∀ i v rest, put ((i, v) :: rest) =
      if i = key then (key, value) :: rest else (i, v) :: put rest)
    (table : List (α × β)) (k : α) :
    (put table).lookup k = if k = key then some value else table.lookup k := by
  induction table with
  | nil =>
      rw [hnil]
      exact lookup_cons_ite _ _ k
  | cons e rest ih =>
      obtain ⟨i, v⟩ := e
      rw [hcons]
      split
      · next h =>
          subst h
          rw [lookup_cons_ite, lookup_cons_ite]
          split <;> rfl
      · next h =>
          rw [lookup_cons_ite, lookup_cons_ite, ih]
          by_cases hk : k = i
          · subst hk
            rw [if_pos rfl, if_neg h, if_pos rfl]
          · rw [if_neg hk, if_neg hk]

/-- A key of a table has a value there. -/
theorem exists_lookup_of_mem {table : List (α × β)} {k : α} (h : k ∈ table.map (·.1)) :
    ∃ v, table.lookup k = some v ∧ (k, v) ∈ table := by
  induction table with
  | nil => cases h
  | cons e rest ih =>
      rw [lookup_cons_ite]
      by_cases hk : k = e.1
      · rw [if_pos hk, hk]
        exact ⟨e.2, rfl, List.mem_cons_self⟩
      · rw [if_neg hk]
        obtain ⟨v, hv, hmem⟩ := ih ((List.mem_cons.mp h).resolve_left hk)
        exact ⟨v, hv, List.mem_cons_of_mem _ hmem⟩

end StepRunner
