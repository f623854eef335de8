import Mathlib.Algebra.Order.Archimedean.Basic
import BleAtHost.Lib.Liveness
import BleAtHost.Lib.Progress
import BleAtHost.StreamTest.Test

/-!
# The stream test comes to an end

The loops of the main thread look at the clock in every pass. Nothing is asked of the link, so that a peer that is silent
cannot keep the gated mode waiting for ever.
-/

namespace BleAtHost.StreamTest

open Prog

/-- The main thread takes its turns, and the clock goes on. Every method of the client returns or raises. -/
structure Fair (σ : Nat → Event) : Prop where
  clock : ∀ time : ℚ, ∃ n, ∀ m, n ≤ m → ∀ w, σ m = .main w → time ≤ w.now
  turns : ∀ n, ∃ m, n ≤ m ∧ ∃ w, σ m = .main w

/-- The test before step `n`. -/
def course (args : Args) (σ : Nat → Event) (n : Nat) : Rig × Program Unit :=
  ((Runs.course Running.step (.start args) σ n).rig, (Runs.course Running.step (.start args) σ n).main)

/-- An operation in step `n`; only the main thread asks for one. -/
def performAt (σ : Nat → Event) (n : Nat) (s : Rig) (o : Op) : Option (Answer o × Rig) :=
  match σ n with
  | .main w => s.perform w o
  | _ => none

variable {args : Args} {σ : Nat → Event} {N : Nat} {α β : Type}

theorem run_course (fair : Fair σ) : Run (performAt σ) (fun n => ∃ w, σ n = .main w) (course args σ) where
  turn := by
    rintro n ⟨w, hw⟩
    have hperform : performAt σ n = Rig.perform w := by
      funext s o
      rw [performAt, hw]
    rw [course, Runs.course_succ, hw, hperform]
    rfl
  other := by
    intro n hn
    rw [course, Runs.course_succ]
    cases hσ : σ n with
    | main w => exact absurd ⟨w, hσ⟩ hn
    | receive chunk now =>
        show (Running.step _ _).main = _
        rw [Running.step]
        split
        · rfl
        · rfl
    | markNext => rfl
  often n := by
    obtain ⟨m, hm, w, hw⟩ := fair.turns n
    exact ⟨m, hm, w, hw⟩

theorem perform_isSome (w : Choice) (s : Rig) (o : Op) : (s.perform w o).isSome := by
  cases o with
  | call c =>
      cases c with
      | writeStream payload =>
          rw [Rig.perform]
          split
          · rfl
          · rfl
      | _ => rfl
  | _ => rfl

theorem answered (fair : Fair σ) (o : Op) (n : Nat) :
    ∃ m, n ≤ m ∧ (∃ w, σ m = .main w) ∧ ∀ s, (performAt σ m s o).isSome := by
  obtain ⟨m, hm, w, hw⟩ := fair.turns n
  refine ⟨m, hm, ⟨w, hw⟩, fun s => ?_⟩
  rw [performAt, hw]
  exact perform_isSome w s o

theorem ends_ask_bind (fair : Fair σ) {o : Op} {f : Answer o → Program α} {Q : Except TestError α → Prop}
    (hf : ∀ a, Ends (course args σ) N (f a) Q) : Ends (course args σ) N (ask o >>= f) Q :=
  ends_op (run_course fair) (answered fair o) fun _ _ _ _ a _ _ => hf a

/-- Two programs that come to their ends one after the other. -/
theorem ends_then {p : Program α} {f : α → Program β} (hp : Ends (course args σ) N p fun _ => True)
    (hf : ∀ a, Ends (course args σ) N (f a) fun _ => True) : Ends (course args σ) N (p >>= f) fun _ => True := by
  refine ends_bind (hp.mono ?_)
  rintro (e | a) -
  · trivial
  · exact hf a

theorem ends_call (fair : Fair σ) (c : Client.Call) : Ends (course args σ) N (call c) fun _ => True := by
  refine ends_ask_bind fair fun r => ?_
  cases r with
  | error e => exact ends_raise trivial
  | ok a => exact ends_pure trivial

theorem ends_ask (fair : Fair σ) (o : Op) : Ends (course args σ) N (ask o) fun _ => True :=
  ends_op (run_course fair) (answered fair o) fun _ _ _ _ _ _ _ => ends_pure trivial

/-! ## The loops -/

/-- After a look at the clock late enough, what follows knows that it is late. -/
theorem ends_monotonic_bind (fair : Fair σ) {time : ℚ} (hlate : ∀ m, N ≤ m → ∀ w, σ m = .main w → time ≤ w.now)
    {f : ℚ → Program α} {Q : Except TestError α → Prop} (hf : ∀ now, time ≤ now → Ends (course args σ) N (f now) Q) :
    Ends (course args σ) N (ask .monotonic >>= f) Q := by
  refine ends_op (run_course fair) (answered fair _) ?_
  rintro m hm ⟨w, hw⟩ s now s' he
  rw [performAt, hw] at he
  cases he
  exact hf _ (hlate m hm w hw)

theorem ends_gateShut (fair : Fair σ) : Ends (course args σ) N (gateShut args) fun _ => True := by
  rw [gateShut]
  split
  · exact ends_pure trivial
  · exact ends_ask_bind fair fun _ => ends_pure trivial

theorem ends_sendFrame (fair : Fair σ) (start now : ℚ) (s : Sending) :
    Ends (course args σ) N (sendFrame args start now s) fun _ => True := by
  refine ends_then (ends_ask_bind fair fun now' => ?_) fun frame => ?_
  · split
    · exact ends_raise trivial
    · exact ends_pure trivial
  · refine ends_ask_bind fair fun sentTime => ends_ask_bind fair fun _ => ends_then (ends_call fair _) fun _ => ?_
    dsimp only
    split
    · exact ends_ask_bind fair fun _ => ends_pure trivial
    · exact ends_pure trivial

theorem ends_sendPass (fair : Fair σ) (start : ℚ) (s : Sending) :
    Ends (course args σ) N (sendPass args start s) fun _ => True := by
  refine ends_ask_bind fair fun now => ?_
  dsimp only
  split
  · exact ends_pure trivial
  refine ends_then (ends_gateShut fair) fun shut => ?_
  split
  · exact ends_ask_bind fair fun _ => ends_pure trivial
  · split
    · split
      · exact ends_ask_bind fair fun _ => ends_pure trivial
      · exact ends_pure trivial
    · exact ends_sendFrame fair start now s

/-- Once the duration is over a pass leaves the loop. -/
theorem ends_sending (fair : Fair σ) (start : ℚ) (s : Sending) :
    Ends (course args σ) N (forever s (sendPass args start)) fun _ => True := by
  refine ends_forever (run_course fair) (ends_sendPass fair start) ?_
  obtain ⟨M, hlate⟩ := fair.clock (start + args.duration)
  refine ⟨M, fun s' => ends_monotonic_bind fair hlate fun now hnow => ?_⟩
  have hover : args.duration ≤ now - start := by
    rw [le_sub_iff_add_le, add_comm]
    exact hnow
  dsimp only
  rw [if_pos hover]
  exact ends_pure fun _ he => by cases he

theorem ends_settle (fair : Fair σ) (deadline : ℚ) : Ends (course args σ) N (settle deadline) fun _ => True := by
  refine ends_forever (run_course fair) (fun _ => ends_ask_bind fair fun now => ?_) ?_
  · split
    · refine ends_ask_bind fair fun outstanding => ?_
      split
      · exact ends_ask_bind fair fun _ => ends_pure trivial
      · exact ends_pure trivial
    · exact ends_pure trivial
  · obtain ⟨M, hlate⟩ := fair.clock deadline
    refine ⟨M, fun _ => ends_monotonic_bind fair hlate fun now hnow => ?_⟩
    rw [if_neg (not_lt.mpr hnow)]
    exact ends_pure fun _ he => by cases he

/-! ## The whole test -/

theorem ends_streamFrames (fair : Fair σ) : Ends (course args σ) N (streamFrames args) fun _ => True := by
  unfold streamFrames
  split
  · exact ends_raise trivial
  · refine ends_ask_bind fair fun start => ends_then (ends_sending fair start _) fun _ => ?_
    refine ends_ask_bind fair fun stop => ends_ask_bind fair fun settled => ends_then (ends_settle fair _) fun _ => ?_
    exact ends_ask fair _

theorem ends_resolveTarget (fair : Fair σ) : Ends (course args σ) N (resolveTarget args) fun _ => True := by
  unfold resolveTarget
  split
  · exact ends_pure trivial
  split
  · exact ends_raise trivial
  · refine ends_then (ends_call fair _) fun results => ?_
    split
    · exact ends_pure trivial
    · exact ends_raise trivial

theorem ends_session (fair : Fair σ) : Ends (course args σ) N (session args) fun _ => True := by
  refine ends_then (ends_call fair _) fun _ => ends_then (ends_resolveTarget fair) fun target => ?_
  refine ends_ask_bind fair fun _ => ends_then (ends_call fair _) fun _ => ends_then (ends_call fair _) fun _ => ?_
  refine ends_then (ends_streamFrames fair) fun _ => ends_then (ends_call fair _) fun _ => ?_
  exact ends_then (ends_call fair _) fun text => ends_ask_bind fair fun _ => ends_call fair _

theorem ends_main (fair : Fair σ) : Ends (course args σ) N (main args) fun _ => True := by
  unfold main
  split
  · exact ends_raise trivial
  · refine ends_ask_bind fair fun _ => ends_then (ends_attempt (ends_session fair)) fun r => ?_
    cases r with
    | ok a => exact ends_ask fair _
    | error e => exact ends_ask_bind fair fun _ => ends_raise trivial

/-- Whatever the link does, the test comes to an end. -/
theorem test_ends (args : Args) (fair : Fair σ) : ∃ n, (Runs.course Running.step (.start args) σ n).main.Ended := by
  have hends : Ends (course args σ) 0 (main args) fun _ => True := ends_main fair
  obtain ⟨n, -, e, -, hend⟩ := hends _ context_id 0 (Nat.le_refl 0) rfl
  exact ⟨n, e, hend⟩

/-- The main thread and the handler take turns, one step a second. -/
def inTurns (n : Nat) : Event := if n % 2 = 0 then .main (quietChoice n) else .markNext

theorem fair_inTurns : Fair inTurns where
  clock time := by
    obtain ⟨n, hn⟩ := exists_nat_ge time
    refine ⟨n, fun m hm w hw => ?_⟩
    unfold inTurns at hw
    split at hw
    · cases hw
      exact hn.trans (Nat.cast_le.mpr hm)
    · cases hw
  turns n := ⟨2 * n, by omega, quietChoice (2 * n : Nat), if_pos (by omega)⟩

/-- A gated test of ten seconds that nobody answers. -/
def silentArgs : Args := ⟨Client.str "aa", 0, [], [], 3, 10, 1, 190, .echoGated, 1, 2, 5⟩

theorem test_ends_silent : ∃ n, (Runs.course Running.step (.start silentArgs) inTurns n).main.Ended :=
  test_ends silentArgs fair_inTurns

end BleAtHost.StreamTest
