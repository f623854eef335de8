import BleAtHost.Lib.Lines
import BleAtHost.Main.Log
import BleAtHost.Main.System

/-!
# Control lines

`queue_ctrl_line` and the transmit half of the interrupt handler by themselves, in any order.
-/

namespace BleAtHost.Main

inductive LineEvent where
  | queue (line : Text)
  /-- The transmitter is ready; `accept` is the answer of `uart_fifo_fill`. -/
  | drain (accept now : Int)
  | lineState (dtr : Bool)
deriving DecidableEq, Repr

def lineStep (s : App) : LineEvent → App
  | .queue line => queueCtrlLine s line
  | .drain accept now => if s.txIrqEnabled then serviceUartTx s accept now else s
  | .lineState dtr => usbMessageCb s dtr

/-- An empty control queue in any other state. -/
def linesStart (s : App) : App := { s with ctrlTxRing := .empty, log := [] }

/-- The lines that are queued. -/
def queuedLines : List LineEvent → List Text
  | [] => []
  | .queue line :: es => line :: queuedLines es
  | _ :: es => queuedLines es

/-- Bytes of the control queue that `uart_fifo_fill` accepted. -/
def Obs.ctrlFilled : Obs → List Byte
  | .fill true bytes => bytes
  | _ => []

/-- What the host reads of the control queue once it has read all of it. -/
def ctrlStream (s : App) : List Byte := collect Obs.ctrlFilled s.log ++ s.ctrlTxRing.data

/-- The stream consists of whole lines, and these are some of the queued ones in the order of queueing. -/
def AtomicLines (lines : List Text) (stream : List Byte) : Prop :=
  (Lines.cut 13 10 stream).2 = [] ∧ (Lines.cut 13 10 stream).1.Sublist lines

/-- A line with its terminator finds room, or it finds none at all. -/
def LineEvent.AllOrNothing (s : App) : LineEvent → Prop
  | .queue line => line.length + newline.length ≤ s.ctrlTxRing.spaceGet ∨ s.ctrlTxRing.spaceGet = 0
  | _ => True

end BleAtHost.Main
