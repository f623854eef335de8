import Mathlib.Logic.Relation

/-!
# Runs of a transition system

A system is a step function over inputs. An invariant that one step keeps holds after every run, and a step
that a relation on abstract states can follow makes the whole run one that the relation can follow.
-/

namespace Runs

open Relation

variable {σ τ ε : Type*}

/-- The state after a sequence of inputs. -/
def run (step : σ → ε → σ) (s : σ) (es : List ε) : σ := es.foldl step s

@[simp] theorem run_nil (step : σ → ε → σ) (s : σ) : run step s [] = s := rfl
@[simp] theorem run_cons (step : σ → ε → σ) (s : σ) (e : ε) (es : List ε) :
    run step s (e :: es) = run step (step s e) es := rfl

theorem run_append (step : σ → ε → σ) (s : σ) (es es' : List ε) :
    run step s (es ++ es') = run step (run step s es) es' := List.foldl_append

theorem run_invariant {step : σ → ε → σ} {P : σ → Prop} (hstep : ∀ s e, P s → P (step s e)) {s : σ}
    (h : P s) (es : List ε) : P (run step s es) := by
  induction es generalizing s with
  | nil => exact h
  | cons e es ih => exact ih (hstep s e h)

/-- Every step of the run meets `C`. -/
def Along (C : σ → ε → Prop) (step : σ → ε → σ) : σ → List ε → Prop
  | _, [] => True
  | s, e :: es => C s e ∧ Along C step (step s e) es

instance decidableAlong {C : σ → ε → Prop} [∀ s e, Decidable (C s e)] {step : σ → ε → σ} :
    (s : σ) → (es : List ε) → Decidable (Along C step s es)
  | _, [] => inferInstanceAs (Decidable True)
  | s, e :: es =>
      have : Decidable (Along C step (step s e) es) := decidableAlong (step s e) es
      inferInstanceAs (Decidable (_ ∧ _))

theorem along_of_forall {C : ε → Prop} {step : σ → ε → σ} {s : σ} {es : List ε} (h : ∀ e ∈ es, C e) :
    Along (fun _ e => C e) step s es := by
  induction es generalizing s with
  | nil => exact trivial
  | cons e es ih => exact ⟨h e List.mem_cons_self, ih fun e' he => h e' (List.mem_cons_of_mem _ he)⟩

theorem Along.and {C D : σ → ε → Prop} {step : σ → ε → σ} {s : σ} {es : List ε} (hc : Along C step s es)
    (hd : Along D step s es) : Along (fun s e => C s e ∧ D s e) step s es := by
  induction es generalizing s with
  | nil => exact trivial
  | cons e es ih => exact ⟨⟨hc.1, hd.1⟩, ih hc.2 hd.2⟩

theorem along_append {C : σ → ε → Prop} {step : σ → ε → σ} {s : σ} {es es' : List ε} :
    Along C step s (es ++ es') ↔ Along C step s es ∧ Along C step (run step s es) es' := by
  induction es generalizing s with
  | nil => simp [Along]
  | cons e es ih => simp [Along, ih, and_assoc]

theorem run_invariant_along {C : σ → ε → Prop} {step : σ → ε → σ} {P : σ → Prop}
    (hstep : ∀ s e, C s e → P s → P (step s e)) {s : σ} (h : P s) {es : List ε} (hc : Along C step s es) :
    P (run step s es) := by
  induction es generalizing s with
  | nil => exact h
  | cons e es ih => exact ih (hstep s e hc.1 h) hc.2

/-- Where `C` is what a step must meet to keep `Q`, every state of a run has `Q` exactly if every step meets `C`. -/
theorem along_iff {C : σ → ε → Prop} {step : σ → ε → σ} {I Q : σ → Prop} (hI : ∀ s e, I s → I (step s e))
    (hQ : ∀ s e, I s → Q s → (Q (step s e) ↔ C s e)) {s : σ} (hi : I s) (hq : Q s) (es : List ε) :
    (∀ es', es' <+: es → Q (run step s es')) ↔ Along C step s es := by
  induction es generalizing s with
  | nil =>
      refine ⟨fun _ => trivial, fun _ es' he => ?_⟩
      rw [List.prefix_nil.mp he]
      exact hq
  | cons e es ih =>
      constructor
      · intro h
        have hnext : Q (step s e) := h [e] (List.prefix_append [e] es)
        refine ⟨(hQ s e hi hq).mp hnext, (ih (hI s e hi) hnext).mp fun es' he => ?_⟩
        exact h (e :: es') (List.prefix_cons_inj e |>.mpr he)
      · rintro ⟨hc, hrest⟩ es' he
        have hnext : Q (step s e) := (hQ s e hi hq).mpr hc
        cases es' with
        | nil => exact hq
        | cons e' es' =>
            obtain ⟨rfl, htail⟩ := List.cons_prefix_cons.mp he
            exact (ih (hI s e' hi) hnext).mpr hrest es' htail

/-- Simulation: if every step from a state in `P` is followed by `R` on the abstract side and stays in `P`,
so is every run. -/
theorem run_simulates {step : σ → ε → σ} {R : τ → τ → Prop} {abs : σ → τ} {a : τ}
    (hstep : ∀ s e, ReflTransGen R a (abs s) → ReflTransGen R (abs s) (abs (step s e))) {s : σ}
    (h : ReflTransGen R a (abs s)) (es : List ε) : ReflTransGen R a (abs (run step s es)) :=
  run_invariant (P := fun s => ReflTransGen R a (abs s)) (fun s e hs => hs.trans (hstep s e hs)) h es

/-! ## Invariants of a relation -/

theorem invariant {R : τ → τ → Prop} {P : τ → Prop} (hstep : ∀ {a b}, R a b → P a → P b) {a b : τ}
    (h : ReflTransGen R a b) (ha : P a) : P b := by
  induction h with
  | refl => exact ha
  | tail _ hbc ih => exact hstep hbc ih

/-- An invariant under a condition on the past: if the condition still holds after a step then it held before
it, so the step lemma may use it. -/
theorem guarded_invariant {R : τ → τ → Prop} {G P : τ → Prop} (hG : ∀ {a b}, R a b → G b → G a)
    (hstep : ∀ {a b}, R a b → G b → P a → P b) {a b : τ} (h : ReflTransGen R a b) (ha : P a) (hb : G b) :
    P b := by
  induction h with
  | refl => exact ha
  | tail _ hbc ih => exact hstep hbc hb (ih (hG hbc hb))

end Runs
