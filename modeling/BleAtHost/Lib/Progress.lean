import BleAtHost.Lib.Prog

/-!
# Programs that come to an end

A thread and others take turns for ever. `Ends` tells of a program that it comes to its end whenever the thread gets to
it, and it is proved along the program: a loop ends if every pass does and the late passes leave it.
-/

namespace Prog

variable {O : Type} {A : O → Type} {ε α β γ : Type}

attribute [local simp] bind attempt turn

/-! ## Results -/

/-- A program that has returned or raised. -/
def result : Except ε α → Prog O A ε α
  | .ok a => .pure a
  | .error e => .raise e

def Ended (p : Prog O A ε α) : Prop := ∃ r, p = result r

theorem not_ended_op (o : O) (next : A o → Prog O A ε α) : ¬(Prog.op o next).Ended := by
  rintro ⟨e | a, h⟩
  · cases h
  · cases h

theorem not_ended_loop {σ : Type} (body : σ → Prog O A ε (σ ⊕ β)) (s : σ) (next : β → Prog O A ε α) :
    ¬(Prog.loop body s next).Ended := by
  rintro ⟨e | a, h⟩
  · cases h
  · cases h

/-! ## Turns of a part of a program -/

theorem bind_assoc (p : Prog O A ε α) (f : α → Prog O A ε β) (g : β → Prog O A ε γ) :
    (p.bind f).bind g = p.bind fun a => (f a).bind g := by
  induction p with
  | pure a => rfl
  | raise e => rfl
  | op o next ih =>
      simp only [bind]
      exact congrArg (Prog.op o) (funext fun a => ih a f)
  | loop body s next _ ih =>
      simp only [bind]
      exact congrArg (Prog.loop body s) (funext fun b => ih b f)

/-- What comes after an attempt of the first program. -/
def attemptNext (f : α → Prog O A ε β) : Except ε α → Prog O A ε (Except ε β)
  | .ok a => (f a).attempt
  | .error e => .pure (.error e)

theorem attempt_bind (p : Prog O A ε α) (f : α → Prog O A ε β) : (p.bind f).attempt = p.attempt.bind (attemptNext f) := by
  induction p with
  | pure a => rfl
  | raise e => rfl
  | op o next ih =>
      simp only [bind, attempt]
      exact congrArg (Prog.op o) (funext fun a => ih a f)
  | loop body s next _ ih =>
      simp only [bind, attempt]
      refine congrArg (Prog.loop _ s) (funext fun r => ?_)
      cases r with
      | ok b => exact ih b f
      | error e => rfl

section
variable {S : Type} (perform : S → (o : O) → Option (A o × S)) (s : S) {p : Prog O A ε α}

theorem turn_bind (h : ¬p.Ended) (f : α → Prog O A ε β) :
    (p.bind f).turn perform s = ((p.turn perform s).1, (p.turn perform s).2.bind f) := by
  cases p with
  | pure a => exact absurd ⟨.ok a, rfl⟩ h
  | raise e => exact absurd ⟨.error e, rfl⟩ h
  | op o next =>
      simp only [bind, turn]
      cases perform s o with
      | none => rfl
      | some r => rfl
  | loop body i next =>
      have hagain : again body (fun b => (next b).bind f) = fun r => (again body next r).bind f := by
        funext r
        cases r with
        | inl i => rfl
        | inr b => rfl
      simp only [bind]
      rw [turn_loop, turn_loop, bind_assoc, hagain]

theorem turn_attempt (h : ¬p.Ended) :
    p.attempt.turn perform s = ((p.turn perform s).1, (p.turn perform s).2.attempt) := by
  cases p with
  | pure a => exact absurd ⟨.ok a, rfl⟩ h
  | raise e => exact absurd ⟨.error e, rfl⟩ h
  | op o next =>
      simp only [attempt, turn]
      cases perform s o with
      | none => rfl
      | some r => rfl
  | loop body i next =>
      rw [turn_loop, attempt_bind]
      simp only [attempt]
      rw [turn_loop, bind_assoc]
      refine congrArg (fun f => (s, (body i).attempt.bind f)) (funext fun r => ?_)
      rcases r with e | i' | b
      · rfl
      · simp only [leave, bind, again, attemptNext, attempt]
      · rfl

theorem ended_attempt (h : p.attempt.Ended) : p.Ended := by
  cases p with
  | pure a => exact ⟨.ok a, rfl⟩
  | raise e => exact ⟨.error e, rfl⟩
  | op o next => exact absurd h (not_ended_op o _)
  | loop body s next =>
      rw [attempt] at h
      exact absurd h (not_ended_loop _ s _)

theorem ended_bind {f : α → Prog O A ε β} (h : (p.bind f).Ended) : p.Ended := by
  cases p with
  | pure a => exact ⟨.ok a, rfl⟩
  | raise e => exact ⟨.error e, rfl⟩
  | op o next => exact absurd h (not_ended_op o _)
  | loop body s next => exact absurd h (not_ended_loop body s _)

end

/-- A program around another one, which runs first. -/
def Context (K : Prog O A ε α → Prog O A ε β) : Prop :=
  ∀ (S : Type) (perform : S → (o : O) → Option (A o × S)) (s : S) (p : Prog O A ε α), ¬p.Ended →
    (K p).turn perform s = ((p.turn perform s).1, K (p.turn perform s).2)

theorem context_id : Context fun p : Prog O A ε α => p := fun _ _ _ _ _ => rfl

theorem Context.bind {K : Prog O A ε β → Prog O A ε γ} (hK : Context K) (f : α → Prog O A ε β) :
    Context fun p : Prog O A ε α => K (p.bind f) := by
  intro S perform s p hp
  rw [hK S perform s _ (mt ended_bind hp), turn_bind perform s hp]

theorem Context.attempt {K : Prog O A ε (Except ε α) → Prog O A ε γ} (hK : Context K) :
    Context fun p : Prog O A ε α => K p.attempt := by
  intro S perform s p hp
  rw [hK S perform s _ (mt ended_attempt hp), turn_attempt perform s hp]

/-! ## Runs -/

section
variable {S : Type} {perform : Nat → S → (o : O) → Option (A o × S)} {mine : Nat → Prop} {r : Nat → S × Prog O A ε γ}
  {N : Nat} {Q : Except ε α → Prop}

/-- `r n` is what there is before step `n`. Some steps are turns of the thread, again and again; the others leave its
program alone. -/
structure Run (perform : Nat → S → (o : O) → Option (A o × S)) (mine : Nat → Prop) (r : Nat → S × Prog O A ε γ) :
    Prop where
  turn : ∀ {n}, mine n → r (n + 1) = (r n).2.turn (perform n) (r n).1
  other : ∀ {n}, ¬mine n → (r (n + 1)).2 = (r n).2
  often : ∀ n, ∃ m, n ≤ m ∧ mine m

/-- Whenever the thread gets to `p`, from step `N` on, it gets to the end of it, with a result in `Q`. -/
def Ends (r : Nat → S × Prog O A ε γ) (N : Nat) (p : Prog O A ε α) (Q : Except ε α → Prop) : Prop :=
  ∀ K, Context K → ∀ n, N ≤ n → (r n).2 = K p → ∃ m, n ≤ m ∧ ∃ e, Q e ∧ (r m).2 = K (result e)

theorem Ends.mono {p : Prog O A ε α} {Q' : Except ε α → Prop} (h : Ends r N p Q) (hq : ∀ e, Q e → Q' e) :
    Ends r N p Q' := by
  intro K hK n hn hp
  obtain ⟨m, hm, e, he, hend⟩ := h K hK n hn hp
  exact ⟨m, hm, e, hq e he, hend⟩

theorem ends_result {e : Except ε α} (he : Q e) : Ends r N (result e) Q := fun _ _ n _ hp => ⟨n, Nat.le_refl n, e, he, hp⟩

theorem ends_pure {a : α} (ha : Q (.ok a)) : Ends r N (pure a) Q := ends_result ha

theorem ends_raise {e : ε} (he : Q (.error e)) : Ends r N (raise e) Q := ends_result he

/-- A turn in a part of the program. -/
theorem Run.part (hr : Run perform mine r) {K : Prog O A ε α → Prog O A ε γ} (hK : Context K) {n : Nat}
    {p : Prog O A ε α} (hp : (r n).2 = K p) (hne : ¬p.Ended) (hn : mine n) :
    r (n + 1) = ((p.turn (perform n) (r n).1).1, K (p.turn (perform n) (r n).1).2) := by
  rw [hr.turn hn, hp, hK _ _ _ _ hne]

/-- An operation that is answered some time, and what follows it. -/
theorem ends_op (hr : Run perform mine r) {o : O} {next : A o → Prog O A ε α}
    (ha : ∀ n, ∃ m, n ≤ m ∧ mine m ∧ ∀ s, (perform m s o).isSome)
    (hnext : ∀ m, N ≤ m → mine m → ∀ s a s', perform m s o = some (a, s') → Ends r N (next a) Q) :
    Ends r N (.op o next) Q := by
  intro K hK n hn hp
  obtain ⟨m, hm, hmine, hsome⟩ := ha n
  -- until step `m` it asks again
  induction hk : m - n generalizing n with
  | zero =>
      obtain rfl : m = n := by omega
      have hturn := hr.part hK hp (not_ended_op o next) hmine
      obtain ⟨⟨a, s'⟩, he⟩ := Option.isSome_iff_exists.mp (hsome (r m).1)
      simp only [turn, he] at hturn
      obtain ⟨l, hl, e, hq, hend⟩ := hnext m hn hmine _ a s' he K hK (m + 1) (by omega) (by rw [hturn])
      exact ⟨l, by omega, e, hq, hend⟩
  | succ k ih =>
      by_cases hmy : mine n
      · have hturn := hr.part hK hp (not_ended_op o next) hmy
        cases he : perform n (r n).1 o with
        | none =>
            simp only [turn, he] at hturn
            obtain ⟨l, hl, hend⟩ := ih (n + 1) (by omega) (by rw [hturn]) (by omega) (by omega)
            exact ⟨l, by omega, hend⟩
        | some answer =>
            simp only [turn, he] at hturn
            obtain ⟨l, hl, e, hq, hend⟩ := hnext n hn hmy _ _ _ he K hK (n + 1) (by omega) (by rw [hturn])
            exact ⟨l, by omega, e, hq, hend⟩
      · obtain ⟨l, hl, hend⟩ := ih (n + 1) (by omega) (by rw [hr.other hmy, hp]) (by omega) (by omega)
        exact ⟨l, by omega, hend⟩

/-- After the first program the second has to come to its end, unless the first has raised. -/
def Leads (r : Nat → S × Prog O A ε γ) (N : Nat) (f : α → Prog O A ε β) (Q : Except ε β → Prop) : Except ε α → Prop
  | .ok a => Ends r N (f a) Q
  | .error e => Q (.error e)

theorem ends_bind {p : Prog O A ε α} {f : α → Prog O A ε β} {Q : Except ε β → Prop} (h : Ends r N p (Leads r N f Q)) :
    Ends r N (p >>= f) Q := by
  intro K hK n hn hp
  obtain ⟨m, hm, e, he, hend⟩ := h _ (hK.bind f) n hn hp
  cases e with
  | error e => exact ⟨m, hm, .error e, he, hend⟩
  | ok a =>
      obtain ⟨l, hl, e, hq, hend⟩ := he K hK m (by omega) hend
      exact ⟨l, by omega, e, hq, hend⟩

theorem ends_attempt {p : Prog O A ε α} {Q : Except ε (Except ε α) → Prop} (h : Ends r N p fun e => Q (.ok e)) :
    Ends r N p.attempt Q := by
  intro K hK n hn hp
  obtain ⟨m, hm, e, he, hend⟩ := h _ hK.attempt n hn hp
  refine ⟨m, hm, .ok e, he, ?_⟩
  cases e with
  | error e => exact hend
  | ok a => exact hend

/-- The next turn of the thread is in `p`. -/
theorem Run.wait (hr : Run perform mine r) {p : Prog O A ε γ} {n : Nat} (hp : (r n).2 = p) :
    ∃ m, n ≤ m ∧ mine m ∧ (r m).2 = p := by
  obtain ⟨m, hm, hmine⟩ := hr.often n
  induction hk : m - n generalizing n with
  | zero =>
      obtain rfl : m = n := by omega
      exact ⟨m, hm, hmine, hp⟩
  | succ k ih =>
      by_cases hmy : mine n
      · exact ⟨n, Nat.le_refl n, hmy, hp⟩
      · obtain ⟨l, hl, hrest⟩ := ih (by rw [hr.other hmy, hp]) (by omega) (by omega)
        exact ⟨l, by omega, hrest⟩

/-- A loop all of whose passes come to their ends, the late ones outside of it. -/
theorem ends_forever (hr : Run perform mine r) {σ : Type} {body : σ → Prog O A ε (σ ⊕ α)} {s : σ}
    (hpass : ∀ i, Ends r N (body i) fun _ => True)
    (hlate : ∃ M, ∀ i, Ends r M (body i) fun e => ∀ i', e ≠ .ok (.inl i')) :
    Ends r N (forever s body) fun _ => True := by
  intro K hK n hn hp
  obtain ⟨M, hlate⟩ := hlate
  -- every pass takes at least one step, and step `M` is that many steps away
  induction hk : M - n using Nat.strongRecOn generalizing n s with
  | ind k ih =>
      obtain ⟨l, hl, hmine, hloop⟩ := hr.wait hp
      have hturn := hr.part hK hloop (not_ended_loop body s _) hmine
      rw [forever, turn_loop] at hturn
      have hbody : (r (l + 1)).2 = K ((body s).bind (again body .pure)) := by rw [hturn]
      have hout : ∀ m, l + 1 ≤ m → ∀ e : Except ε (σ ⊕ α), (∀ i', e ≠ .ok (.inl i')) →
          (r m).2 = K ((result e).bind (again body .pure)) → ∃ m, n ≤ m ∧ ∃ e, True ∧ (r m).2 = K (result e) := by
        intro m hm e hne hend
        rcases e with e | i | a
        · exact ⟨m, by omega, .error e, trivial, hend⟩
        · exact absurd rfl (hne i)
        · exact ⟨m, by omega, .ok a, trivial, hend⟩
      by_cases hM : M ≤ l + 1
      · obtain ⟨m, hm, e, hne, hend⟩ := hlate s _ (hK.bind _) (l + 1) hM hbody
        exact hout m hm e hne hend
      · obtain ⟨m, hm, e, -, hend⟩ := hpass s _ (hK.bind _) (l + 1) (by omega) hbody
        rcases e with e | i | a
        · exact hout m hm (.error e) (by simp) hend
        · obtain ⟨m', hm', hend'⟩ := ih (M - m) (by omega) (s := i) m (by omega) hend rfl
          exact ⟨m', by omega, hend'⟩
        · exact hout m hm (.ok (.inr a)) (by simp) hend

end

end Prog
