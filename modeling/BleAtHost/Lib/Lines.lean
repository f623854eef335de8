import Mathlib.Data.List.Basic
import Mathlib.Tactic.Common

/-!
# Lines in a stream

A stream of symbols is cut at a terminator of two symbols. Lines that do not hold the first symbol of the
terminator are found again.
-/

namespace Lines

variable {α : Type}

/-- A symbol in front of the first line. -/
def extend (a : α) : List (List α) × List α → List (List α) × List α
  | (line :: lines, left) => ((a :: line) :: lines, left)
  | ([], left) => ([], a :: left)

/-- The lines of a stream that end in the terminator, and what stands behind the last one. -/
def cut [DecidableEq α] (cr lf : α) : List α → List (List α) × List α
  | [] => ([], [])
  | [a] => ([], [a])
  | a :: b :: rest =>
      if a = cr ∧ b = lf then ([] :: (cut cr lf rest).1, (cut cr lf rest).2) else extend a (cut cr lf (b :: rest))

/-- The stream of these lines. -/
def join (cr lf : α) (lines : List (List α)) : List α := (lines.map (· ++ [cr, lf])).flatten

variable [DecidableEq α] {cr lf : α}

theorem cut_line {line : List α} (rest : List α) (h : cr ∉ line) :
    cut cr lf (line ++ cr :: lf :: rest) = (line :: (cut cr lf rest).1, (cut cr lf rest).2) := by
  induction line with
  | nil => simp [cut]
  | cons a line ih =>
      have ha : a ≠ cr := fun he => h (by simp [he])
      have hstep : cut cr lf (a :: (line ++ cr :: lf :: rest)) = extend a (cut cr lf (line ++ cr :: lf :: rest)) := by
        cases line with
        | nil => simp [cut, ha]
        | cons b line => simp [cut, ha]
      rw [List.cons_append, hstep, ih fun hm => h (List.mem_cons_of_mem _ hm)]
      rfl

theorem cut_join {lines : List (List α)} (h : ∀ line ∈ lines, cr ∉ line) :
    cut cr lf (join cr lf lines) = (lines, []) := by
  induction lines with
  | nil => rfl
  | cons line lines ih =>
      have hjoin : join cr lf (line :: lines) = line ++ cr :: lf :: join cr lf lines := by simp [join]
      rw [hjoin, cut_line _ (h line List.mem_cons_self), ih fun l hl => h l (List.mem_cons_of_mem _ hl)]

end Lines
