import Mathlib.Algebra.Order.Ring.Rat
import BleAtHost.Lib.KeyStore
import BleAtHost.StreamTest.Frames

/-!
# The accounts of the stream test

`StreamStats` in `e2e_stream_test.py`, and the history of its calls. Times and rates are exact here; the lock orders the
calls.
-/

namespace BleAtHost

/-- `txTimestamps` is a dictionary and `rxSeen` a set. -/
structure StreamStats where
  frameSize : Nat
  txFrames : Nat
  rxFrames : Nat
  reorderedFrames : Nat
  duplicateFrames : Nat
  lastRxSeq : Int
  txTimestamps : List (Nat × ℚ)
  rxSeen : List Nat
  rttSamplesMs : List ℚ
deriving DecidableEq, Repr

namespace StreamStats

open StreamTest

def init (frameSize : Nat) : StreamStats where
  frameSize := frameSize
  txFrames := 0
  rxFrames := 0
  reorderedFrames := 0
  duplicateFrames := 0
  lastRxSeq := -1
  txTimestamps := []
  rxSeen := []
  rttSamplesMs := []

def markTx (s : StreamStats) (seq : Nat) (sentTime : ℚ) : StreamStats :=
  { s with
    txFrames := s.txFrames + 1
    txTimestamps := KeyStore.save s.txTimestamps seq sentTime }

def markRx (s : StreamStats) (frame : ParsedFrame) (receivedTime : ℚ) : StreamStats :=
  if frame.seq ∈ s.rxSeen then { s with duplicateFrames := s.duplicateFrames + 1 }
  else
    let s :=
      { s with
        rxSeen := frame.seq :: s.rxSeen
        rxFrames := s.rxFrames + 1
        reorderedFrames :=
          if 0 ≤ s.lastRxSeq ∧ frame.seq < s.lastRxSeq then s.reorderedFrames + 1 else s.reorderedFrames
        lastRxSeq := max s.lastRxSeq frame.seq }
    match KeyStore.get s.txTimestamps frame.seq with
    | none => s
    | some sentTime =>
        { s with
          txTimestamps := s.txTimestamps.filter fun item => item.1 ≠ frame.seq
          rttSamplesMs := s.rttSamplesMs ++ [(receivedTime - sentTime) * 1000] }

def outstanding (s : StreamStats) : Nat := s.txTimestamps.length

structure Snapshot where
  txFrames : Nat
  rxFrames : Nat
  lostFrames : Int
  reorderedFrames : Nat
  duplicateFrames : Nat
  txBps : ℚ
  rxBps : ℚ
  avgRttMs : ℚ
  maxRttMs : ℚ
  outstandingFrames : Nat
deriving DecidableEq, Repr

def snapshot (s : StreamStats) (elapsed : ℚ) : Snapshot where
  txFrames := s.txFrames
  rxFrames := s.rxFrames
  lostFrames := (s.txFrames : Int) - s.rxFrames
  reorderedFrames := s.reorderedFrames
  duplicateFrames := s.duplicateFrames
  txBps := if 0 < elapsed then s.txFrames * s.frameSize / elapsed else 0
  rxBps := if 0 < elapsed then s.rxFrames * s.frameSize / elapsed else 0
  avgRttMs := if s.rttSamplesMs = [] then 0 else s.rttSamplesMs.sum / s.rttSamplesMs.length
  maxRttMs := s.rttSamplesMs.max?.getD 0
  outstandingFrames := s.txTimestamps.length

end StreamStats

namespace StreamTest

/-- A call of `mark_tx` or `mark_rx`. -/
inductive Mark where
  | tx (seq : Nat) (sentTime : ℚ)
  | rx (frame : ParsedFrame) (receivedTime : ℚ)
deriving DecidableEq, Repr

def mark (s : StreamStats) : Mark → StreamStats
  | .tx seq sentTime => s.markTx seq sentTime
  | .rx frame receivedTime => s.markRx frame receivedTime

/-- The accounts after these calls. -/
def accounts (frameSize : Nat) (history : List Mark) : StreamStats := history.foldl mark (.init frameSize)

/-! ## What a history says -/

def Mark.sent? : Mark → Option Nat
  | .tx seq _ => some seq
  | .rx _ _ => none

def Mark.received? : Mark → Option Nat
  | .tx _ _ => none
  | .rx frame _ => some frame.seq

/-- The sequence numbers that were sent, in order. -/
def sent (history : List Mark) : List Nat := history.filterMap Mark.sent?

/-- The sequence numbers of the frames that were received. -/
def received (history : List Mark) : List Nat := history.filterMap Mark.received?

/-- The calls from the one on that sends `seq`. -/
def sinceSent (seq : Nat) (history : List Mark) : List Mark := history.dropWhile fun m => m.sent? ≠ some seq

/-- The sent sequence numbers for which nothing was received after they were sent. -/
def awaited (history : List Mark) : List Nat :=
  (sent history).filter fun seq => seq ∉ received (sinceSent seq history)

/-- The sent sequence numbers for which nothing was received at all. -/
def neverReceived (history : List Mark) : List Nat := (sent history).filter fun seq => seq ∉ received history

/-- The main loop counts the sequence numbers up from zero. -/
def CountsUp (history : List Mark) : Prop := sent history = List.range (sent history).length

instance (history : List Mark) : Decidable (CountsUp history) := inferInstanceAs (Decidable (_ = _))

end StreamTest

end BleAtHost
