import BleAtHost.Lib.Runs
import Mathlib.Order.Basic
import Mathlib.Order.Nat
import Mathlib.Tactic.Common

/-!
# Runs that never end

A system runs on an infinite sequence of inputs. What it comes to in the end is shown with a rank: while the goal is
not reached, every step lowers the rank, or leaves it as it is together with the input that is due.
-/

namespace Runs

variable {σ ε : Type*} {step : σ → ε → σ} {s : σ} {es : Nat → ε}

/-- The states of the run. -/
def course (step : σ → ε → σ) (s : σ) (es : Nat → ε) : Nat → σ
  | 0 => s
  | n + 1 => step (course step s es n) (es n)

@[simp] theorem course_zero : course step s es 0 = s := rfl
@[simp] theorem course_succ (n : Nat) : course step s es (n + 1) = step (course step s es n) (es n) := rfl

theorem course_invariant {P : σ → Prop} (hstep : ∀ s e, P s → P (step s e)) (h : P s) (n : Nat) : P (course step s es n) := by
  induction n with
  | zero => exact h
  | succ n ih => exact hstep _ _ ih

/-- What every step keeps holds of any later state together with an earlier one. -/
theorem course_relation {R : σ → σ → Prop} (hrefl : ∀ s, R s s) (htrans : ∀ {a b c}, R a b → R b c → R a c) {n m : Nat} (hn : n ≤ m)
    (hstep : ∀ k, n ≤ k → k < m → R (course step s es k) (course step s es (k + 1))) :
    R (course step s es n) (course step s es m) := by
  induction m, hn using Nat.le_induction with
  | base => exact hrefl _
  | succ m hm ih => exact htrans (ih fun k hk hlt => hstep k hk (by omega)) (hstep m hm (by omega))

/-- A state that no further input changes is the last one. -/
theorem course_stays {n : Nat} (h : ∀ k, n ≤ k → step (course step s es n) (es k) = course step s es n) {m : Nat} (hm : n ≤ m) :
    course step s es m = course step s es n := by
  induction m, hm using Nat.le_induction with
  | base => rfl
  | succ m hm ih => rw [course_succ, ih, h m hm]

/-- Such inputs come again and again. -/
def Often (es : Nat → ε) (p : ε → Prop) : Prop := ∀ n, ∃ m, n ≤ m ∧ p (es m)

/-- While the goal is not reached every step lowers the rank, or leaves the rank and the inputs that are due as they
are. An input that is due lowers the rank, and it comes some time; so the goal is reached. -/
theorem reached_by_rank {goal : Nat → Prop} (rank : Nat → Nat) (due : Nat → ε → Prop) {n : Nat}
    (hdue : ∀ k, n ≤ k → Often es (due k))
    (hstep : ∀ k, n ≤ k → ¬goal k → goal (k + 1) ∨ rank (k + 1) < rank k ∨
      rank (k + 1) = rank k ∧ due (k + 1) = due k ∧ ¬due k (es k)) : ∃ m, n ≤ m ∧ goal m := by
  -- on the rank, and for the same rank on the steps to the input that is due
  induction hr : rank n using Nat.strongRecOn generalizing n with
  | ind r ih =>
      obtain ⟨m, hm, he⟩ := hdue n le_rfl n
      induction hd : m - n using Nat.strongRecOn generalizing n with
      | ind d ihd =>
          by_cases hg : goal n
          · exact ⟨n, le_rfl, hg⟩
          have hnext : ∀ k, n + 1 ≤ k → n ≤ k := fun k hk => by omega
          rcases hstep n le_rfl hg with hgoal | hless | ⟨hsame, hstill, hother⟩
          · exact ⟨n + 1, by omega, hgoal⟩
          · obtain ⟨l, hl, hgoal⟩ := ih _ (hr ▸ hless) (fun k hk => hdue k (hnext k hk)) (fun k hk => hstep k (hnext k hk)) rfl
            exact ⟨l, by omega, hgoal⟩
          · have hlt : n < m := by
              rcases Nat.lt_or_eq_of_le hm with hlt | heq
              · exact hlt
              · rw [← heq] at he
                exact absurd he hother
            obtain ⟨l, hl, hgoal⟩ := ihd (m - (n + 1)) (by omega) (fun k hk => hdue k (hnext k hk))
              (fun k hk => hstep k (hnext k hk)) (hsame.trans hr) hlt (hstill ▸ he) rfl
            exact ⟨l, by omega, hgoal⟩

/-- A measure that grows again and again passes every bound. -/
theorem exceeds_of_grows {μ : Nat → Nat} {n : Nat} (hmono : ∀ k l, n ≤ k → k ≤ l → μ k ≤ μ l) {β : Nat}
    (hgrows : ∀ k, n ≤ k → μ k < β → ∃ l, k ≤ l ∧ μ k < μ l) : ∃ m, n ≤ m ∧ β ≤ μ m := by
  induction hd : β - μ n using Nat.strongRecOn generalizing n with
  | ind d ih =>
      by_cases hb : β ≤ μ n
      · exact ⟨n, le_rfl, hb⟩
      obtain ⟨l, hl, hless⟩ := hgrows n le_rfl (by omega)
      obtain ⟨m, hm, hbound⟩ := ih (β - μ l) (by omega) (fun i j hi hj => hmono i j (by omega) hj)
        (fun i hi => hgrows i (by omega)) rfl
      exact ⟨m, by omega, hbound⟩

end Runs
