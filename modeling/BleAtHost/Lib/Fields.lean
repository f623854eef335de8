import Mathlib.Data.List.Basic

/-!
# Separated fields

The fields of a list between the occurrences of a separator, one field at a time from the left.
-/

namespace Fields

variable {α : Type*}

/-- The first field ends at the first separator, if there is one. -/
theorem splitOn_step [DecidableEq α] (sep : α) (l : List α) :
    l.splitOn sep = l.takeWhile (· ≠ sep) ::
      (match l.dropWhile (· ≠ sep) with
      | [] => []
      | _ :: rest => rest.splitOn sep) := by
  induction l with
  | nil => rfl
  | cons x l ih =>
      rw [List.splitOn_cons_eq_if_modifyHead]
      by_cases hx : x = sep
      · subst hx
        simp
      · rw [if_neg (by simpa using hx), List.takeWhile_cons_of_pos (by simpa using hx),
          List.dropWhile_cons_of_pos (by simpa using hx), ih]
        rfl

/-- All fields but the last one, if that is empty. -/
def dropEmptyLast : List (List α) → List (List α)
  | [] => []
  | [[]] => []
  | field :: fields => field :: dropEmptyLast fields

theorem dropEmptyLast_cons {field : List α} {fields : List (List α)} (h : field ≠ [] ∨ fields ≠ []) :
    dropEmptyLast (field :: fields) = field :: dropEmptyLast fields := by
  cases field with
  | cons x field => cases fields <;> rfl
  | nil =>
      cases fields with
      | cons field fields => rfl
      | nil => simp at h

theorem dropEmptyLast_concat (fields : List (List α)) : dropEmptyLast (fields ++ [[]]) = fields := by
  induction fields with
  | nil => rfl
  | cons field fields ih =>
      rw [List.cons_append, dropEmptyLast_cons (.inr (by simp)), ih]

theorem dropEmptyLast_cases (fields : List (List α)) :
    dropEmptyLast fields = fields ∨ fields = dropEmptyLast fields ++ [[]] := by
  induction fields with
  | nil => exact .inl rfl
  | cons field fields ih =>
      by_cases h : field ≠ [] ∨ fields ≠ []
      · rw [dropEmptyLast_cons h]
        rcases ih with he | he
        · exact .inl (by rw [he])
        · exact .inr (by rw [List.cons_append, ← he])
      · push Not at h
        obtain ⟨rfl, rfl⟩ := h
        exact .inr rfl

end Fields
