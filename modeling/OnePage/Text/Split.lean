/-! # Splitting

A list is cut at each element that separates. There is one part more than there are separators,
and no part holds one (`not_separator_of_mem_split`). -/

namespace OnePage.Text

variable {α : Type}

def split (separates : α → Bool) : List α → List (List α)
  | [] => [[]]
  | a :: as =>
    if separates a then [] :: split separates as
    else match split separates as with
      | [] => [[a]]
      | part :: parts => (a :: part) :: parts

/-- The parts that are not empty. -/
def tokens (separates : α → Bool) (as : List α) : List (List α) :=
  (split separates as).filter fun part => !part.isEmpty

@[simp] theorem split_nil (separates : α → Bool) : split separates [] = [[]] := rfl

theorem split_ne_nil (separates : α → Bool) (as : List α) : split separates as ≠ [] := by
  cases as with
  | nil => simp
  | cons a as =>
    simp only [split]
    split
    · simp
    · split <;> simp

theorem split_cons_of_separates {separates : α → Bool} {a : α} (h : separates a) (as : List α) :
    split separates (a :: as) = [] :: split separates as := by
  simp [split, h]

theorem length_split (separates : α → Bool) (as : List α) :
    (split separates as).length = as.countP separates + 1 := by
  induction as with
  | nil => rfl
  | cons a as ih =>
    by_cases h : separates a
    · simp [split, h, ih]
    · cases hs : split separates as with
      | nil => exact absurd hs (split_ne_nil _ _)
      | cons part parts => simp_all [split]

theorem not_separator_of_mem_split {separates : α → Bool} {as part : List α}
    (hpart : part ∈ split separates as) {a : α} (ha : a ∈ part) : separates a = false := by
  induction as generalizing part with
  | nil => simp_all [split]
  | cons b as ih =>
    by_cases h : separates b
    · rw [split_cons_of_separates h] at hpart
      rcases List.mem_cons.1 hpart with rfl | hpart
      · exact absurd ha List.not_mem_nil
      · exact ih hpart ha
    · cases hs : split separates as with
      | nil => exact absurd hs (split_ne_nil _ _)
      | cons first parts =>
        simp only [split, h, hs, Bool.false_eq_true, if_false] at hpart
        rcases List.mem_cons.1 hpart with rfl | hpart
        · rcases List.mem_cons.1 ha with rfl | ha
          · simpa using h
          · exact ih (hs ▸ List.mem_cons_self ..) ha
        · exact ih (hs ▸ List.mem_cons_of_mem _ hpart) ha

end OnePage.Text
