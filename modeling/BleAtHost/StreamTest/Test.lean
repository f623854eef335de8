import BleAtHost.Lib.Prog
import BleAtHost.Lib.Runs
import BleAtHost.Client.System
import BleAtHost.StreamTest.Stats

/-!
# The stream test

`main` in `e2e_stream_test.py`, as a program of the main thread over the client, the clock and the accounts, and the
handler that the reader thread of the client runs. Times are in seconds, those of the client in milliseconds.
-/

namespace BleAtHost.StreamTest

open Client (Call PyError ScanResult Str str)
open Prog (raise forever attempt)

inductive Mode where
  | blindRate
  | echoGated
deriving DecidableEq, Repr

/-- The options; an empty text stands for one that is not given. -/
structure Args where
  mac : Str
  addrType : Int
  targetName : Str
  scanPrefix : Str
  scanSeconds : Int
  duration : ℚ
  hz : ℚ
  frameSize : Int
  mode : Mode
  maxOutstanding : Int
  settleTime : ℚ
  statsInterval : ℚ
deriving DecidableEq, Repr

namespace Args

variable (args : Args)

/-- Once the option has been checked. -/
def size : Nat := args.frameSize.toNat

/-- `period_s`. -/
def period : ℚ := 1 / args.hz

end Args

/-- What is printed; the texts are not modelled. -/
inductive Printed where
  | target (mac : Str) (addrType : Int)
  | live (snapshot : StreamStats.Snapshot)
  | result (snapshot : StreamStats.Snapshot)
  | streamStat (text : Str)
deriving DecidableEq, Repr

/-! ## The main thread -/

inductive Op where
  | addDataHandler
  /-- A method of the client. -/
  | call (call : Call)
  | monotonic
  | sleep (duration : ℚ)
  | outstanding
  | markTx (seq : Nat) (sentTime : ℚ)
  | print (line : Printed)
  /-- `print_snapshot` of `stats.snapshot(elapsed)`. -/
  | printSnapshot (line : StreamStats.Snapshot → Printed) (elapsed : ℚ)
  | close

/-- What a method returns. -/
@[reducible] def Result : Call → Type
  | .scan _ _ _ => List ScanResult
  | .getStreamStat _ => Str
  | _ => Unit

@[reducible] def Answer : Op → Type
  | .call call => Except PyError (Result call)
  | .monotonic => ℚ
  | .outstanding => Nat
  | _ => Unit

inductive TestError where
  | client (e : PyError)
  | runtimeError (message : Str)
  | valueError (message : Str)
  | zeroDivisionError
  /-- `struct.error`. -/
  | structError
deriving DecidableEq, Repr

abbrev Program : Type → Type 1 := Prog Op Answer TestError

def ask (o : Op) : Program (Answer o) := Prog.ask o

/-- An exception of the method goes on. -/
def call (c : Call) : Program (Result c) := do
  match ← ask (.call c) with
  | .ok result => pure result
  | .error e => raise (.client e)

/-- `int(time.monotonic() * 1000) & 0xFFFFFFFF`. -/
def milliseconds (now : ℚ) : Nat := ((now * 1000).num.tdiv (now * 1000).den % 2 ^ 32).toNat

/-- `build_frame` with the clock; `struct.pack` refuses what does not fit into its field. -/
def buildFrameNow (seq frameSize : Nat) : Program (List Byte) := do
  let now ← ask .monotonic
  if 2 ^ 32 ≤ seq ∨ 2 ^ 16 ≤ frameSize then raise .structError
  else pure (buildFrame seq (milliseconds now) frameSize)

def resolveTarget (args : Args) : Program (Str × Int) :=
  if args.mac ≠ [] then pure (args.mac, args.addrType)
  else if args.targetName = [] then
    raise (.runtimeError (str "Set --target-name or BLE_AT_TARGET_NAME, or provide --mac directly"))
  else do
    let results ← call (.scan args.scanSeconds args.scanPrefix 10000)
    match results.find? fun result => result.name = args.targetName with
    | some result => pure (result.mac, result.addrType)
    | none => raise (.runtimeError (str "Target " ++ args.targetName ++ str " not found during scan"))

/-- What the loop keeps. -/
structure Sending where
  seq : Nat
  nextSend : ℚ
  nextStats : ℚ
deriving DecidableEq, Repr

/-- `args.mode == "echo_gated" and stats.outstanding() >= args.max_outstanding`. -/
def gateShut (args : Args) : Program Bool :=
  match args.mode with
  | .blindRate => pure false
  | .echoGated => do
      let outstanding ← ask .outstanding
      pure (decide (args.maxOutstanding ≤ (outstanding : Int)))

/-- The rest of a pass that sends a frame. -/
def sendFrame (args : Args) (start now : ℚ) (s : Sending) : Program (Sending ⊕ Unit) := do
  let frame ← buildFrameNow s.seq args.size
  let sentTime ← ask .monotonic
  ask (.markTx s.seq sentTime)
  call (.writeStream frame)
  let seq := s.seq + 1
  let nextSend := s.nextSend + args.period
  if s.nextStats ≤ now then
    ask (.printSnapshot .live (now - start))
    pure (.inl ⟨seq, nextSend, now + args.statsInterval⟩)
  else pure (.inl ⟨seq, nextSend, s.nextStats⟩)

/-- A pass of the loop. -/
def sendPass (args : Args) (start : ℚ) (s : Sending) : Program (Sending ⊕ Unit) := do
  let now ← ask .monotonic
  if args.duration ≤ now - start then pure (.inr ())
  else if ← gateShut args then
    ask (.sleep (1 / 1000))
    pure (.inl s)
  else if now < s.nextSend then
    let sleepTime := min (s.nextSend - now) (5 / 1000)
    if 0 < sleepTime then
      ask (.sleep sleepTime)
      pure (.inl s)
    else pure (.inl s)
  else sendFrame args start now s

/-- `while time.monotonic() < settle_deadline and stats.outstanding() > 0`. -/
def settle (deadline : ℚ) : Program Unit :=
  forever () fun _ => do
    let now ← ask .monotonic
    if now < deadline then
      let outstanding ← ask .outstanding
      if 0 < outstanding then
        ask (.sleep (1 / 100))
        pure (.inl ())
      else pure (.inr ())
    else pure (.inr ())

/-- From `period_s` on. -/
def streamFrames (args : Args) : Program Unit := do
  if args.hz = 0 then raise .zeroDivisionError
  else
    let start ← ask .monotonic
    forever ⟨0, start, start + args.statsInterval⟩ (sendPass args start)
    let stop ← ask .monotonic
    let activeElapsed := stop - start
    let settled ← ask .monotonic
    settle (settled + args.settleTime)
    ask (.printSnapshot .result activeElapsed)

/-- The body of the `try` statement. -/
def session (args : Args) : Program Unit := do
  call (.recoverControlMode 2000 1100)
  let (mac, addrType) ← resolveTarget args
  ask (.print (.target mac addrType))
  call (.connect mac addrType 10000)
  call (.enterDataMode 5000)
  streamFrames args
  call (.exitDataMode 5000 1100)
  let streamStat ← call (.getStreamStat 5000)
  ask (.print (.streamStat streamStat))
  call (.disconnect 5000)

/-- After the arguments are parsed. -/
def main (args : Args) : Program Unit := do
  if args.frameSize < HEADER_SIZE then raise (.valueError (str "frame-size is smaller than the protocol header"))
  else
    ask .addDataHandler
    match ← attempt (session args) with
    | .ok _ => ask .close
    | .error e => do
        ask .close
        raise e

/-! ## Both threads -/

/-- `written` is what `write_stream` was called with and `received` what the handler was called with; the handler still
has to mark the frames in `found`, which it found at `foundAt`. `history` is the record of the calls. -/
structure Rig where
  handler : Bool
  stats : StreamStats
  parserState : FrameParser
  found : List ParsedFrame
  foundAt : ℚ
  written : List (List Byte)
  received : List Byte
  history : List Mark
  printed : List Printed
deriving DecidableEq, Repr

/-- What the world decides about an operation: the clock, and how a method of the client ends. -/
structure Choice where
  now : ℚ
  reply : (c : Call) → Except PyError (Result c)

namespace Rig

def init (args : Args) : Rig where
  handler := false
  stats := .init args.size
  parserState := .init args.size
  found := []
  foundAt := 0
  written := []
  received := []
  history := []
  printed := []

/-- The operations on the accounts. -/
def mark (s : Rig) (m : Mark) : Rig := { s with stats := StreamTest.mark s.stats m, history := s.history ++ [m] }

/-- An operation of the main thread. A frame that `write_stream` refuses is not written. -/
def perform (w : Choice) (s : Rig) : (o : Op) → Option (Answer o × Rig)
  | .addDataHandler => some ((), { s with handler := true })
  | .call (.writeStream payload) =>
      match w.reply (.writeStream payload) with
      | .ok _ => some (.ok (), { s with written := s.written ++ [payload] })
      | .error e => some (.error e, s)
  | .call c => some (w.reply c, s)
  | .monotonic => some (w.now, s)
  | .sleep _ => some ((), s)
  | .outstanding => some (s.stats.outstanding, s)
  | .markTx seq sentTime => some ((), s.mark (.tx seq sentTime))
  | .print line => some ((), { s with printed := s.printed ++ [line] })
  | .printSnapshot line elapsed => some ((), { s with printed := s.printed ++ [line (s.stats.snapshot elapsed)] })
  | .close => some ((), s)

/-- `on_stream_data` is called and feeds the parser. -/
def receive (s : Rig) (chunk : List Byte) (now : ℚ) : Rig :=
  let (frames, parserState) := s.parserState.feed chunk
  { s with parserState := parserState, found := frames, foundAt := now, received := s.received ++ chunk }

/-- `on_stream_data` marks the next frame. -/
def markNext (s : Rig) : Rig :=
  match s.found with
  | [] => s
  | frame :: rest => { s.mark (.rx frame s.foundAt) with found := rest }

end Rig

/-- `main` is what the main thread still has to do. -/
structure Running where
  rig : Rig
  main : Program Unit

inductive Event where
  | main (w : Choice)
  | receive (chunk : List Byte) (now : ℚ)
  | markNext

/-- The reader thread calls the handler for one chunk after the other. -/
def Running.step (s : Running) : Event → Running
  | .main w =>
      let (rig, main) := s.main.turn (Rig.perform w) s.rig
      ⟨rig, main⟩
  | .receive chunk now => if s.rig.handler ∧ s.rig.found = [] then { s with rig := s.rig.receive chunk now } else s
  | .markNext => { s with rig := s.rig.markNext }

def Running.start (args : Args) : Running := ⟨.init args, StreamTest.main args⟩

/-- An empty result. -/
def quietResult : (c : Call) → Result c
  | .scan _ _ _ | .getStreamStat _ => []
  | .connect _ _ _ | .disconnect _ | .send _ _ | .getStatus _ | .setProfile _ _ _ _ | .getProfile _ | .enterDataMode _
  | .drainStream _ | .syncControlMode _ _ | .recoverControlMode _ _ | .exitDataMode _ _ | .writeStream _
  | .readStream _ => ()

/-- Every method returns. -/
def quietChoice (now : ℚ) : Choice := ⟨now, fun c => .ok (quietResult c)⟩

end BleAtHost.StreamTest
