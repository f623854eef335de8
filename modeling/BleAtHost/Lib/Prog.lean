import Mathlib.Logic.Basic

/-!
# Programs of one thread

A program asks for operations and goes on with the answers; others act between two operations. It may raise an
exception, and a loop runs its body until the body leaves it. `wp` tells from which states a program keeps to what
its operations allow and ends in a postcondition, however they answer.
-/

/-- `O` are the operations, `A` their answers and `ε` the exceptions. The body of a loop goes on with a new state
or leaves the loop with a result. -/
inductive Prog (O : Type) (A : O → Type) (ε : Type) : Type → Type 1 where
  | pure {α : Type} (a : α) : Prog O A ε α
  | raise {α : Type} (e : ε) : Prog O A ε α
  | op {α : Type} (o : O) (next : A o → Prog O A ε α) : Prog O A ε α
  | loop {α β σ : Type} (body : σ → Prog O A ε (σ ⊕ β)) (s : σ) (next : β → Prog O A ε α) : Prog O A ε α

namespace Prog

variable {O : Type} {A : O → Type} {ε α β : Type}

def bind {α β : Type} : Prog O A ε α → (α → Prog O A ε β) → Prog O A ε β
  | .pure a, f => f a
  | .raise e, _ => .raise e
  | .op o next, f => .op o fun a => (next a).bind f
  | .loop body s next, f => .loop body s fun b => (next b).bind f

instance : Monad (Prog O A ε) where
  pure := .pure
  bind := .bind

/-- One operation. -/
def ask (o : O) : Prog O A ε (A o) := .op o .pure

/-- A loop without an end of its own. -/
def forever {σ : Type} (s : σ) (body : σ → Prog O A ε (σ ⊕ β)) : Prog O A ε β := .loop body s .pure

/-- A body that raises leaves the loop with the exception. -/
def leave {σ : Type} : Except ε (σ ⊕ β) → Prog O A ε (σ ⊕ Except ε β)
  | .ok (.inl s) => .pure (.inl s)
  | .ok (.inr b) => .pure (.inr (.ok b))
  | .error e => .pure (.inr (.error e))

/-- Catches every exception. -/
def attempt {α : Type} : Prog O A ε α → Prog O A ε (Except ε α)
  | .pure a => .pure (.ok a)
  | .raise e => .pure (.error e)
  | .op o next => .op o fun a => (next a).attempt
  | .loop (β := β) body s next =>
      .loop (fun s => (body s).attempt.bind leave) s fun r : Except ε β =>
        match r with
        | .ok b => (next b).attempt
        | .error e => .pure (.error e)

/-! ## Turns -/

/-- One turn of a program. An operation that has no answer yet is asked for again; a loop is unfolded. -/
def turn {S : Type} (perform : S → (o : O) → Option (A o × S)) (s : S) : Prog O A ε α → S × Prog O A ε α
  | .op o next =>
      match perform s o with
      | some (a, s') => (s', next a)
      | none => (s, .op o next)
  | .loop (σ := σ) (β := β) body i next =>
      (s, (body i).bind fun r : σ ⊕ β =>
        match r with
        | .inl i' => .loop body i' next
        | .inr b => next b)
  | .pure a => (s, .pure a)
  | .raise e => (s, .raise e)

/-- After a pass of a loop. -/
def again {σ : Type} (body : σ → Prog O A ε (σ ⊕ β)) (next : β → Prog O A ε α) : σ ⊕ β → Prog O A ε α
  | .inl i => .loop body i next
  | .inr b => next b

theorem turn_loop {S σ : Type} (perform : S → (o : O) → Option (A o × S)) (s : S) (body : σ → Prog O A ε (σ ⊕ β))
    (i : σ) (next : β → Prog O A ε α) :
    (Prog.loop body i next).turn perform s = (s, (body i).bind (again body next)) := by
  have hagain : again body next = fun r => match r with
    | .inl i => .loop body i next
    | .inr b => next b := by
    funext r
    cases r with
    | inl i => rfl
    | inr b => rfl
  rw [turn, hagain]

/-- A turn changes the state by at most one operation. -/
theorem turn_cases {S : Type} (perform : S → (o : O) → Option (A o × S)) (s : S) (p : Prog O A ε α) :
    (p.turn perform s).1 = s ∨ ∃ o next a s', p = .op o next ∧ perform s o = some (a, s') ∧ (p.turn perform s).1 = s' := by
  cases p with
  | pure a => exact .inl rfl
  | raise e => exact .inl rfl
  | loop body i next => exact .inl rfl
  | op o next =>
      cases he : perform s o with
      | none => exact .inl (by simp only [turn, he])
      | some r => exact .inr ⟨o, next, r.1, r.2, rfl, he, by simp only [turn, he]⟩

/-! ## Preconditions -/

section
variable {τ : Type} (spec : τ → (o : O) → (A o → τ → Prop) → Prop)

/-- A body goes on in the invariant `I` or leaves in `K`. -/
def Kept {σ : Type} (I : σ → τ → Prop) (K : β → τ → Prop) (E : ε → τ → Prop) : Except ε (σ ⊕ β) → τ → Prop
  | .ok (.inl s), t => I s t
  | .ok (.inr b), t => K b t
  | .error e, t => E e t

/-- `spec t o R` tells that `o` may be asked for in `t` and that every answer to it, with the state in which it is
given, satisfies `R`. A loop needs an invariant. -/
def wp {α : Type} : Prog O A ε α → (Except ε α → τ → Prop) → τ → Prop
  | .pure a, Q, t => Q (.ok a) t
  | .raise e, Q, t => Q (.error e) t
  | .op o next, Q, t => spec t o fun a t' => (next a).wp Q t'
  | .loop (σ := σ) body s next, Q, t =>
      ∃ I : σ → τ → Prop, I s t ∧
        ∀ s t, I s t → (body s).wp (Kept I (fun b t' => (next b).wp Q t') fun e t' => Q (.error e) t') t

end

/-! ## Rules -/

section
variable {τ : Type} {spec : τ → (o : O) → (A o → τ → Prop) → Prop}

/-- Fewer answers have to be good for less. -/
def Monotone (spec : τ → (o : O) → (A o → τ → Prop) → Prop) : Prop :=
  ∀ ⦃t o⦄ ⦃R R' : A o → τ → Prop⦄, (∀ a t, R a t → R' a t) → spec t o R → spec t o R'

@[simp] theorem wp_pure (a : α) (Q : Except ε α → τ → Prop) (t : τ) :
    (pure a : Prog O A ε α).wp spec Q t ↔ Q (.ok a) t := Iff.rfl

@[simp] theorem wp_raise (e : ε) (Q : Except ε α → τ → Prop) (t : τ) :
    (raise e : Prog O A ε α).wp spec Q t ↔ Q (.error e) t := Iff.rfl

@[simp] theorem wp_ask (o : O) (Q : Except ε (A o) → τ → Prop) (t : τ) :
    (ask o : Prog O A ε (A o)).wp spec Q t ↔ spec t o fun a t' => Q (.ok a) t' := Iff.rfl

theorem wp_mono (hm : Monotone spec) {p : Prog O A ε α} {Q Q' : Except ε α → τ → Prop} {t : τ}
    (h : p.wp spec Q t) (hq : ∀ r t, Q r t → Q' r t) : p.wp spec Q' t := by
  induction p generalizing t with
  | pure a => exact hq _ _ h
  | raise e => exact hq _ _ h
  | op o next ih => exact hm (fun a t' ha => ih a ha hq) h
  | loop body s next ihb ihn =>
      obtain ⟨I, hi, hstep⟩ := h
      refine ⟨I, hi, fun s t hs => ihb s (hstep s t hs) ?_⟩
      rintro (e | s' | b) t' hr
      · exact hq _ _ hr
      · exact hr
      · exact ihn b hr hq

/-- After the first program the second runs, unless the first has raised. -/
def After (f : α → Prog O A ε β) (spec : τ → (o : O) → (A o → τ → Prop) → Prop) (Q : Except ε β → τ → Prop) :
    Except ε α → τ → Prop
  | .ok a, t => (f a).wp spec Q t
  | .error e, t => Q (.error e) t

theorem wp_bind (hm : Monotone spec) {p : Prog O A ε α} {f : α → Prog O A ε β} {Q : Except ε β → τ → Prop} {t : τ}
    (h : p.wp spec (After f spec Q) t) : (p >>= f).wp spec Q t := by
  change (p.bind f).wp spec Q t
  induction p generalizing t with
  | pure a => exact h
  | raise e => exact h
  | op o next ih => exact hm (fun a t' ha => ih a ha) h
  | loop body s next ihb ihn =>
      obtain ⟨I, hi, hstep⟩ := h
      refine ⟨I, hi, fun s t hs => wp_mono hm (hstep s t hs) ?_⟩
      rintro (e | s' | b) t' hr
      · exact hr
      · exact hr
      · exact ihn b hr

theorem wp_attempt (hm : Monotone spec) {p : Prog O A ε α} {Q : Except ε (Except ε α) → τ → Prop} {t : τ}
    (h : p.wp spec (fun r => Q (.ok r)) t) : p.attempt.wp spec Q t := by
  induction p generalizing t with
  | pure a => exact h
  | raise e => exact h
  | op o next ih => exact hm (fun a t' ha => ih a ha) h
  | loop body s next ihb ihn =>
      obtain ⟨I, hi, hstep⟩ := h
      rw [attempt]
      refine ⟨I, hi, fun s t hs => ?_⟩
      refine wp_bind hm (ihb s (wp_mono hm (hstep s t hs) ?_))
      rintro (e | s' | b) t' hr
      · exact hr
      · exact hr
      · exact ihn b hr

/-! ## Turns keep preconditions -/

/-- `t` stands for what is known of `s`. Every answer that is given is one that `spec` allows. -/
def Sound {S : Type} (spec : τ → (o : O) → (A o → τ → Prop) → Prop) (perform : S → (o : O) → Option (A o × S))
    (known : S → τ → Prop) : Prop :=
  ∀ ⦃s s' t o a⦄ ⦃R : A o → τ → Prop⦄, known s t → spec t o R → perform s o = some (a, s') →
    ∃ t', known s' t' ∧ R a t'

theorem wp_turn (hm : Monotone spec) {S : Type} {perform : S → (o : O) → Option (A o × S)} {known : S → τ → Prop}
    (hs : Sound spec perform known) {p : Prog O A ε α} {Q : Except ε α → τ → Prop} {s : S} {t : τ} (hk : known s t)
    (h : p.wp spec Q t) : ∃ t', known (p.turn perform s).1 t' ∧ (p.turn perform s).2.wp spec Q t' := by
  cases p with
  | pure a => exact ⟨t, hk, h⟩
  | raise e => exact ⟨t, hk, h⟩
  | op o next =>
      simp only [turn]
      split
      · rename_i a s' he
        exact hs hk h he
      · exact ⟨t, hk, h⟩
  | loop body i next =>
      obtain ⟨I, hi, hstep⟩ := h
      refine ⟨t, hk, wp_bind hm (wp_mono hm (hstep i t hi) ?_)⟩
      rintro (e | i' | b) t' hr
      · exact hr
      · exact ⟨I, hr, hstep⟩
      · exact hr

/-! ## Programs that ask for harmless operations only -/

def Uses (allowed : O → Prop) {α : Type} : Prog O A ε α → Prop
  | .pure _ => True
  | .raise _ => True
  | .op o next => allowed o ∧ ∀ a, (next a).Uses allowed
  | .loop body _ next => (∀ s, (body s).Uses allowed) ∧ ∀ b, (next b).Uses allowed

variable {allowed : O → Prop}

theorem uses_pure (a : α) : (pure a : Prog O A ε α).Uses allowed := trivial

theorem uses_raise (e : ε) : (raise e : Prog O A ε α).Uses allowed := trivial

theorem uses_ask {o : O} (h : allowed o) : (ask o : Prog O A ε (A o)).Uses allowed := ⟨h, fun _ => trivial⟩

theorem uses_bind {p : Prog O A ε α} {f : α → Prog O A ε β} (hp : p.Uses allowed) (hf : ∀ a, (f a).Uses allowed) :
    (p >>= f).Uses allowed := by
  change (p.bind f).Uses allowed
  induction p with
  | pure a => exact hf a
  | raise e => trivial
  | op o next ih => exact ⟨hp.1, fun a => ih a (hp.2 a) hf⟩
  | loop body s next _ ih => exact ⟨hp.1, fun b => ih b (hp.2 b) hf⟩

theorem uses_forever {σ : Type} {s : σ} {body : σ → Prog O A ε (σ ⊕ β)} (h : ∀ s, (body s).Uses allowed) :
    (forever s body).Uses allowed := ⟨h, fun _ => trivial⟩

theorem uses_attempt {p : Prog O A ε α} (h : p.Uses allowed) : p.attempt.Uses allowed := by
  induction p with
  | pure a => trivial
  | raise e => trivial
  | op o next ih => exact ⟨h.1, fun a => ih a (h.2 a)⟩
  | loop body s next ihb ihn =>
      rw [attempt]
      refine ⟨fun s => uses_bind (ihb s (h.1 s)) ?_, ?_⟩
      · rintro (e | s' | b)
        · trivial
        · trivial
        · trivial
      · rintro (e | b)
        · trivial
        · exact ihn b (h.2 b)

theorem uses_turn {S : Type} (perform : S → (o : O) → Option (A o × S)) (s : S) {p : Prog O A ε α} (h : p.Uses allowed) :
    (p.turn perform s).2.Uses allowed := by
  cases p with
  | pure a => exact h
  | raise e => exact h
  | op o next =>
      simp only [turn]
      split
      · exact h.2 _
      · exact h
  | loop body i next =>
      rw [turn_loop]
      refine uses_bind (h.1 i) fun r => ?_
      cases r with
      | inl i' => exact h
      | inr b => exact h.2 b

/-- What is known stays so if no operation touches it. -/
theorem wp_of_uses (hm : Monotone spec)
    (hn : ∀ ⦃t o⦄ ⦃R : A o → τ → Prop⦄, allowed o → (∀ a, R a t) → spec t o R) {p : Prog O A ε α}
    (h : p.Uses allowed) (t : τ) : p.wp spec (fun _ t' => t' = t) t := by
  induction p with
  | pure a => rfl
  | raise e => rfl
  | op o next ih => exact hn h.1 fun a => ih a (h.2 a)
  | loop body s next ihb ihn =>
      refine ⟨fun _ t' => t' = t, rfl, ?_⟩
      rintro s _ rfl
      refine wp_mono hm (ihb s (h.1 s)) ?_
      rintro (e | s' | b) _ rfl
      · rfl
      · rfl
      · exact ihn b (h.2 b)

end

end Prog
