import BleAtHost.Lib.Splitter
import BleAtHost.Client.Text

/-!
# The client and its reader thread

The fields of `BleAtHost` in `ble_at.py` and `_reader_loop`. A step of the reader is one test of a flag, one read
or one change of what it shares with the main thread; `exit_buffer` is its own. Handlers of the application and
`_stop` are left out.
-/

namespace BleAtHost

namespace Client

/-- `_EXIT_EVENT`. -/
def EXIT_EVENT : List Byte := ascii "+IND=DATAMODE,0\r\n"

/-- A change that the reader makes to what the threads share. -/
inductive Effect where
  | data (chunk : List Byte)
  | event (line : Str)
  | control (ch : Byte)
  | clearExitPending
  | clearDataMode
deriving DecidableEq, Repr

/-- Where the reader is in its loop. -/
inductive Reader where
  | top
  /-- Before `self.ser.read(1)`. -/
  | control
  /-- Before `self.ser.read(256)`. -/
  | data
  /-- A chunk was read in data mode; `_exit_pending` is tested next. -/
  | got (chunk : List Byte)
  | busy (todo : List Effect)
deriving DecidableEq, Repr

end Client

/-- `input` are the bytes on their way to the client that it has not read, `output` those that it has written and
that nobody has taken. -/
structure Client where
  input : List Byte
  output : List Byte
  lineQueue : List Client.Str
  dataQueue : List (List Byte)
  dataMode : Bool
  exitPending : Bool
  lineBuffer : List Byte
  exitBuffer : List Byte
  reader : Client.Reader
deriving DecidableEq, Repr

namespace Client

def init : Client where
  input := []
  output := []
  lineQueue := []
  dataQueue := []
  dataMode := false
  exitPending := false
  lineBuffer := []
  exitBuffer := []
  reader := .top

def emitEvent (c : Client) (line : Str) : Client := { c with lineQueue := c.lineQueue ++ [line] }

def emitData (c : Client) (chunk : List Byte) : Client :=
  if chunk = [] then c else { c with dataQueue := c.dataQueue ++ [chunk] }

/-- The loop body of `_process_control_bytes`. -/
def processControlByte (c : Client) (ch : Byte) : Client :=
  if ch = 62 ∧ c.lineBuffer = [] then c.emitEvent (str ">")
  else
    let c := { c with lineBuffer := c.lineBuffer ++ [ch] }
    if ch ≠ 10 ∧ ch ≠ 13 then c
    else
      let line := strip (decode c.lineBuffer)
      let c := { c with lineBuffer := [] }
      if line = [] then c else c.emitEvent line

def processControlBytes (c : Client) (chunk : List Byte) : Client := chunk.foldl processControlByte c

def act (c : Client) : Effect → Client
  | .data chunk => c.emitData chunk
  | .event line => c.emitEvent line
  | .control ch => c.processControlByte ch
  | .clearExitPending => { c with exitPending := false }
  | .clearDataMode => { c with dataMode := false }

/-- `_pending_exit_prefix_len`. -/
def pendingExitPrefixLen (buffer : List Byte) : Nat :=
  Splitter.prefixLen EXIT_EVENT buffer (min buffer.length (EXIT_EVENT.length - 1))

/-- The loop of `_handle_exit_pending_chunk`: what it does to the shared state, and `exit_buffer` after it. Every
pass but the last shortens the buffer. -/
def exitPendingLoop : Nat → List Byte → List Effect × List Byte
  | 0, exitBuffer => ([], exitBuffer)
  | passes + 1, exitBuffer =>
      if exitBuffer = [] then ([], [])
      else
        match Splitter.find EXIT_EVENT exitBuffer with
        | some 0 =>
            ([.clearExitPending, .clearDataMode, .event (strip (decode EXIT_EVENT))] ++
              (exitBuffer.drop EXIT_EVENT.length).map .control, [])
        | some eventStart =>
            let (effects, rest) := exitPendingLoop passes (exitBuffer.drop eventStart)
            (.data (exitBuffer.take eventStart) :: effects, rest)
        | none =>
            let flushLen := exitBuffer.length - pendingExitPrefixLen exitBuffer
            if flushLen = 0 then ([], exitBuffer)
            else
              let (effects, rest) := exitPendingLoop passes (exitBuffer.drop flushLen)
              (.data (exitBuffer.take flushLen) :: effects, rest)

def handleExitPendingChunk (exitBuffer chunk : List Byte) : List Effect × List Byte :=
  exitPendingLoop ((exitBuffer ++ chunk).length + 1) (exitBuffer ++ chunk)

/-- One step of `_reader_loop`; a read returns at most `n` bytes, and none if the time is over. -/
def readerStep (c : Client) (n : Nat) : Client :=
  match c.reader with
  | .top => { c with reader := if c.dataMode then .data else .control }
  | .control =>
      let chunk := c.input.take (min n 1)
      { c with
        input := c.input.drop (min n 1)
        reader := if chunk = [] then .top else .busy (chunk.map .control) }
  | .data =>
      let chunk := c.input.take (min n 256)
      { c with
        input := c.input.drop (min n 256)
        reader := if chunk = [] then .top else .got chunk }
  | .got chunk =>
      if c.exitPending then
        let (effects, exitBuffer) := handleExitPendingChunk c.exitBuffer chunk
        { c with exitBuffer := exitBuffer, reader := .busy effects }
      else { c with reader := .busy [.data chunk] }
  | .busy [] => { c with reader := .top }
  | .busy (effect :: todo) => { c.act effect with reader := .busy todo }

end Client

end BleAtHost
