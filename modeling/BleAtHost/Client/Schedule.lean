import Mathlib.Algebra.BigOperators.Intervals
import BleAtHost.Client.System

/-!
# Schedules

One call of the main thread among the steps of the reader and the bytes that arrive. The firmware may send anything at
any time; what the call wrote and read is recorded.
-/

namespace BleAtHost.Client

/-- `read` is a line taken from the queue by a `get` that waits; what `_drain_line_queue` takes is not recorded. -/
inductive Did where
  | wrote (data : List Byte)
  | read (line : Str)
deriving DecidableEq, Repr

def did : (o : Op) → Answer o → List Did
  | .write data, _ => [.wrote data]
  | .getLine _, some line => [.read line]
  | _, _ => []

abbrev Recorded := Client × List Did

/-- `perform` with the record. -/
def recorded (w : Choice) (s : Recorded) (o : Op) : Option (Answer o × Recorded) :=
  (perform w s.1 o).map fun (a, c) => (a, c, s.2 ++ did o a)

inductive Turn where
  | arrive (bytes : List Byte)
  | reader (n : Nat)
  | main (w : Choice)
deriving DecidableEq, Repr

abbrev Calling := Recorded × Program Unit

def Turn.step (s : Calling) : Turn → Calling
  | .arrive bytes => (({ s.1.1 with input := s.1.1.input ++ bytes }, s.1.2), s.2)
  | .reader n => ((s.1.1.readerStep n, s.1.2), s.2)
  | .main w => s.2.turn (recorded w) s.1

/-- The call before turn `n`. -/
def course (c : Client) (program : Program Unit) (σ : Nat → Turn) : Nat → Calling
  | 0 => ((c, []), program)
  | n + 1 => (σ n).step (course c program σ n)

/-! ## Fairness -/

def Turn.bytes : Turn → Nat
  | .arrive bytes => bytes.length
  | _ => 0

def Turn.mine : Turn → Nat
  | .main _ => 1
  | _ => 0

/-- The clock goes on and a wait for a queue runs out of time. A line is discarded in two turns, and in the long run the
main thread takes more turns than the bytes that arrive could keep it busy with. -/
structure Fair (σ : Nat → Turn) : Prop where
  clock : ∀ time : Int, ∃ n, ∀ m, n ≤ m → ∀ w, σ m = .main w → time ≤ w.now
  waits : ∀ n, ∃ m, n ≤ m ∧ ∃ w, σ m = .main w ∧ w.expired = true
  catchesUp : ∀ n ahead, ∃ m, n ≤ m ∧
    ahead + 2 * ∑ k ∈ Finset.Ico n m, (σ k).bytes ≤ ∑ k ∈ Finset.Ico n m, (σ k).mine

/-- Some turns, and the main thread alone after them. -/
def finish (turns : List Turn) (n : Nat) : Turn := (turns[n]?).getD (.main ⟨n, true, 0⟩)

theorem finish_late {turns : List Turn} {n : Nat} (h : turns.length ≤ n) : finish turns n = .main ⟨n, true, 0⟩ := by
  rw [finish, List.getElem?_eq_none h, Option.getD_none]

/-- Nothing arrives late, and every late turn is one of the main thread. -/
theorem sum_finish {turns : List Turn} {n m : Nat} (hn : n ≤ m) (hm : turns.length ≤ m) (k : Nat) :
    ∑ i ∈ Finset.Ico n (m + k), (finish turns i).bytes = ∑ i ∈ Finset.Ico n m, (finish turns i).bytes ∧
      k ≤ ∑ i ∈ Finset.Ico n (m + k), (finish turns i).mine := by
  induction k with
  | zero => exact ⟨rfl, Nat.zero_le _⟩
  | succ k ih =>
      rw [← Nat.add_assoc, Finset.sum_Ico_succ_top (by omega), Finset.sum_Ico_succ_top (by omega),
        finish_late (by omega)]
      exact ⟨ih.1, Nat.succ_le_succ ih.2⟩

theorem fair_finish (turns : List Turn) : Fair (finish turns) where
  clock time := by
    refine ⟨max turns.length time.toNat, fun m hm w hw => ?_⟩
    rw [finish_late (by omega)] at hw
    obtain rfl := Turn.main.inj hw
    show time ≤ (m : Int)
    omega
  waits n := ⟨max turns.length n, by omega, _, finish_late (by omega), rfl⟩
  catchesUp n ahead := by
    have hn : n ≤ max turns.length n := by omega
    obtain ⟨hbytes, hmine⟩ := sum_finish hn (Nat.le_max_left turns.length n)
      (ahead + 2 * ∑ i ∈ Finset.Ico n (max turns.length n), (finish turns i).bytes)
    refine ⟨_, Nat.le_add_right_of_le hn, Nat.le_trans (Nat.le_of_eq ?_) hmine⟩
    rw [hbytes]

theorem course_finish (c : Client) (program : Program Unit) (turns : List Turn) :
    course c program (finish turns) turns.length = turns.foldl Turn.step ((c, []), program) := by
  have hpart : ∀ n, n ≤ turns.length →
      course c program (finish turns) n = (turns.take n).foldl Turn.step ((c, []), program) := by
    intro n hn
    induction n with
    | zero => rfl
    | succ n ih =>
        have hget : finish turns n = turns[n] := by
          rw [finish, List.getElem?_eq_getElem hn, Option.getD_some]
        rw [course, ih (by omega), hget, List.take_succ_eq_append_getElem hn, List.foldl_append]
        rfl
  rw [hpart _ (Nat.le_refl _), List.take_length]

end BleAtHost.Client
