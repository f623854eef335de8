import Mathlib.Data.List.Basic
import Mathlib.Tactic.Common

/-!
# Monitors

A monitor watches the observations of a system and gives up at the first one that it does not expect. A log holds the
newest observation first.
-/

namespace Monitor

variable {σ τ ο π : Type*} {next : σ → ο → Option σ} {start s : σ} {log : List ο}

/-- The state of the monitor after these observations. -/
def watch (next : σ → ο → Option σ) (start : σ) : List ο → Option σ
  | [] => some start
  | o :: log => (watch next start log).bind (next · o)

@[simp] theorem watch_nil : watch next start [] = some start := rfl

@[simp] theorem watch_cons (o : ο) (log : List ο) :
    watch next start (o :: log) = (watch next start log).bind (next · o) := rfl

/-- An observation that no state minds. -/
theorem watch_quiet {o : ο} (h : ∀ s, next s o = some s) (log : List ο) :
    watch next start (o :: log) = watch next start log := by
  rw [watch_cons]
  cases watch next start log with
  | none => rfl
  | some s => exact h s

theorem watch_append_quiet {new : List ο} (h : ∀ o ∈ new, ∀ s, next s o = some s) (log : List ο) :
    watch next start (new ++ log) = watch next start log := by
  induction new with
  | nil => rfl
  | cons o new ih =>
      rw [List.cons_append, watch_quiet (h o List.mem_cons_self)]
      exact ih fun o' ho => h o' (List.mem_cons_of_mem _ ho)

theorem watch_cons_eq_some {o : ο} :
    watch next start (o :: log) = some s ↔ ∃ t, watch next start log = some t ∧ next t o = some s := by
  rw [watch_cons, Option.bind_eq_some_iff]

/-- Every observation was expected when it was made. -/
theorem expected {newer before : List ο} {o : ο} (h : watch next start (newer ++ o :: before) = some s) :
    ∃ t t', watch next start before = some t ∧ next t o = some t' := by
  induction newer generalizing s with
  | nil =>
      obtain ⟨t, ht, hn⟩ := watch_cons_eq_some.mp h
      exact ⟨t, s, ht, hn⟩
  | cons o' newer ih =>
      obtain ⟨t, ht, _⟩ := watch_cons_eq_some.mp h
      exact ih ht

/-- What every expected observation keeps holds of every log that is watched to its end. -/
theorem watch_invariant {P : List ο → σ → Prop} (hstart : P [] start)
    (hstep : ∀ log s o t, P log s → next s o = some t → P (o :: log) t) (h : watch next start log = some s) : P log s := by
  induction log generalizing s with
  | nil =>
      obtain rfl := Option.some.inj h
      exact hstart
  | cons o log ih =>
      obtain ⟨t, ht, hn⟩ := watch_cons_eq_some.mp h
      exact hstep log t o s (ih ht) hn

/-- A coarser monitor that sees only some of the observations. -/
theorem watch_filterMap {next' : τ → π → Option τ} (f : σ → τ) (g : ο → Option π)
    (hstep : ∀ s o t, next s o = some t → (g o).elim (some (f s)) (next' (f s)) = some (f t))
    (h : watch next start log = some s) : watch next' (f start) (log.filterMap g) = some (f s) := by
  refine watch_invariant (P := fun log s => watch next' (f start) (log.filterMap g) = some (f s)) rfl ?_ h
  intro log s o t hs hn
  have hf := hstep s o t hn
  rw [List.filterMap_cons]
  cases hg : g o with
  | none =>
      rw [hg] at hf
      rw [hs]
      exact hf
  | some p =>
      rw [hg] at hf
      exact watch_cons_eq_some.mpr ⟨f s, hs, hf⟩

end Monitor
