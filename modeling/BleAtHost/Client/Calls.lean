import BleAtHost.Lib.Prog
import BleAtHost.Client.State

/-!
# The methods of the client

The methods that the main thread calls, as programs over the operations on the serial port, the queues, the flags
and the clock. Times are in milliseconds. `close` and the registration of handlers are left out.
-/

namespace BleAtHost.Client

inductive Op where
  | write (data : List Byte)
  | resetInputBuffer
  | monotonic
  | sleep (duration : Int)
  /-- `self._line_queue.get(timeout=timeout)`. -/
  | getLine (timeout : Int)
  | getLineNowait
  /-- `self._data_queue.get(timeout=timeout)`. -/
  | getData (timeout : Int)
  | clearLineBuffer
  | dataModeIsSet
  | setDataMode
  | clearDataMode
  | setExitPending
  | clearExitPending
deriving DecidableEq, Repr

/-- Nothing stands for `queue.Empty`. -/
@[reducible] def Answer : Op → Type
  | .monotonic => Int
  | .getLine _ | .getLineNowait => Option Str
  | .getData _ => Option (List Byte)
  | .dataModeIsSet => Bool
  | _ => Unit

inductive PyError where
  | timeoutError
  | runtimeError (message : Str)
  | valueError
  | unicodeEncodeError
deriving DecidableEq, Repr

abbrev Program : Type → Type 1 := Prog Op Answer PyError

structure ScanResult where
  index : Int
  mac : Str
  name : Str
  addrType : Int
  rssi : Int
deriving DecidableEq, Repr

open Prog (raise forever attempt)

def ask (o : Op) : Program (Answer o) := Prog.ask o

def writeLine (command : Str) : Program Unit :=
  match encodeAscii command with
  | some bytes => ask (.write (bytes ++ [13, 10]))
  | none => raise .unicodeEncodeError

def readUntil (predicate : Str → Bool) (timeout : Int) : Program Str := do
  let now ← ask .monotonic
  let deadline : Int := now + timeout
  forever () fun _ => do
    let now ← ask .monotonic
    let remaining : Int := deadline - now
    if remaining ≤ 0 then raise .timeoutError
    else
      match ← ask (.getLine remaining) with
      | none => raise .timeoutError
      | some line => if predicate line then pure (.inr line) else pure (.inl ())

def isFinal (item : Str) : Bool := startsWith item (str "+OK") || startsWith item (str "+ERR")

def waitOk (timeout : Int) : Program Unit := do
  let line ← readUntil isFinal timeout
  if !startsWith line (str "+OK") then raise (.runtimeError line) else pure ()

def drainLineQueue : Program Unit :=
  forever () fun _ => do
    match ← ask .getLineNowait with
    | some _ => pure (.inl ())
    | none => pure (.inr ())

/-- A line `+IND=SCDA` as `scan` takes it apart; `none` stands for `ValueError`. -/
def parseScanResult (line : Str) : Option ScanResult :=
  match split '=' 1 line with
  | [_, payload] =>
      match split ',' 5 payload with
      | [_, index, mac, name, addrType, rssi] => do
          let index ← toInt index
          let addrType ← toInt addrType
          let rssi ← toInt rssi
          some ⟨index, mac, name, addrType, rssi⟩
      | _ => none
  | _ => none

/-- The loop keeps the results and the lines that were seen. Without a prefix is with an empty one. -/
def scan (durationS : Int) (pre : Str) (timeout : Int) : Program (List ScanResult) := do
  writeLine (str "AT+STARTSCAN=" ++ ofInt durationS ++ if pre = [] then [] else str "," ++ pre)
  waitOk timeout
  forever (([], []) : List ScanResult × List Str) fun (results, seen) => do
    let line ← readUntil (fun item => startsWith item (str "+IND=SCDA") || item == str "+IND=SCED") timeout
    if line = str "+IND=SCED" then pure (.inr results)
    else if line ∈ seen then pure (.inl (results, seen))
    else
      match parseScanResult line with
      | some result => pure (.inl (results ++ [result], line :: seen))
      | none => raise .valueError

def connect (mac : Str) (addrType : Int) (timeout : Int) : Program Unit := do
  writeLine (str "AT+STARTCON=" ++ mac ++ str "," ++ ofInt addrType)
  waitOk timeout
  let _ ← readUntil (fun item => item == str "+IND=BLMC,0") timeout
  let _ ← readUntil (fun item => startsWith item (str "+IND=BLMN,0")) timeout

def disconnect (timeout : Int) : Program Unit := do
  writeLine (str "AT+DISCON=0")
  waitOk timeout

def send (payload : List Byte) (timeout : Int) : Program Unit := do
  writeLine (str "AT+SEND=0," ++ ofInt payload.length)
  let prompt ← readUntil (fun item => item == str ">") timeout
  if prompt ≠ str ">" then raise (.runtimeError (str "Unexpected prompt: " ++ prompt))
  else
    ask (.write payload)
    waitOk timeout

def getStatus (timeout : Int) : Program (List Str) := do
  writeLine (str "AT+CONSTATUS")
  forever ([] : List Str) fun lines => do
    let line ← readUntil (fun item => startsWith item (str "+OK") || startsWith item (str "0:")) timeout
    if startsWith line (str "+OK") then pure (.inr (lines ++ [line])) else pure (.inl (lines ++ [line]))

def setProfile (serviceUuid notifyUuid writeUuid : Str) (timeout : Int) : Program Unit := do
  writeLine (str "AT+SETSVCUUID=" ++ serviceUuid ++ str "," ++ notifyUuid ++ str "," ++ writeUuid)
  waitOk timeout

/-- The value of `+OK=`. -/
def readValue (timeout : Int) : Program Str := do
  let line ← readUntil (fun item => startsWith item (str "+OK=") || startsWith item (str "+ERR")) timeout
  if !startsWith line (str "+OK=") then raise (.runtimeError line) else pure (line.drop (str "+OK=").length)

def getProfile (timeout : Int) : Program Str := do
  writeLine (str "AT+GETSVCUUID")
  readValue timeout

def getStreamStat (timeout : Int) : Program Str := do
  writeLine (str "AT+STREAMSTAT")
  readValue timeout

def enterDataMode (timeout : Int) : Program Unit := do
  writeLine (str "AT+ENTERDATAMODE=0")
  waitOk timeout
  let _ ← readUntil (fun item => item == str "+IND=DATAMODE,1") timeout
  ask .setDataMode

def drainStream (timeout : Int) : Program (List Byte) :=
  forever ([] : List (List Byte)) fun chunks => do
    match ← ask (.getData (if chunks = [] then timeout else 0)) with
    | some chunk => pure (.inl (chunks ++ [chunk]))
    | none => pure (.inr chunks.flatten)

/-- The loop of `sync_control_mode`: whether a `+OK` was read. -/
def syncAttempts (deadline : Int) : Nat → Program Bool
  | 0 => pure false
  | attempts + 1 => do
      writeLine (str "AT")
      let now ← ask .monotonic
      match ← attempt (readUntil (fun item => item == str "+OK") (max 200 (deadline - now))) with
      | .ok _ => pure true
      | .error .timeoutError =>
          let now ← ask .monotonic
          if deadline ≤ now then pure false else syncAttempts deadline attempts
      | .error e => raise e

def syncControlMode (timeout : Int) (attempts : Nat) : Program Unit := do
  if ← ask .dataModeIsSet then raise (.runtimeError (str "Data mode is still active"))
  else
    ask .resetInputBuffer
    ask .clearLineBuffer
    drainLineQueue
    let now ← ask .monotonic
    if ← syncAttempts (now + timeout) attempts then pure () else raise .timeoutError

/-- `recover_control_mode` after the first resynchronisation has timed out. -/
def forceControlMode (timeout guardTime : Int) : Program Unit := do
  ask .resetInputBuffer
  ask .clearLineBuffer
  drainLineQueue
  ask .clearExitPending
  ask .clearDataMode
  ask (.sleep guardTime)
  ask (.write (ascii "+++"))
  match ← attempt (readUntil (fun item => item == str "+IND=DATAMODE,0" || startsWith item (str "+ERR"))
    (timeout + guardTime)) with
  | .ok _ | .error .timeoutError =>
      ask .clearExitPending
      ask .clearDataMode
      syncControlMode (max timeout 3000) 3
  | .error e => raise e

def recoverControlMode (timeout guardTime : Int) : Program Unit := do
  match ← attempt (syncControlMode timeout 2) with
  | .ok _ => pure ()
  | .error .timeoutError => forceControlMode timeout guardTime
  | .error e => raise e

def exitDataMode (timeout guardTime : Int) : Program Unit := do
  ask (.sleep guardTime)
  let _ ← drainStream 10
  ask .setExitPending
  ask (.write (ascii "+++"))
  let line ← readUntil (fun item => item == str "+IND=DATAMODE,0") (timeout + guardTime)
  if line ≠ str "+IND=DATAMODE,0" then raise (.runtimeError (str "Unexpected data mode exit line: " ++ line))
  else syncControlMode (min 2000 timeout) 3

def writeStream (payload : List Byte) : Program Unit := do
  if !(← ask .dataModeIsSet) then raise (.runtimeError (str "Data mode is not active"))
  else ask (.write payload)

def readStream (timeout : Int) : Program (List Byte) := do
  match ← ask (.getData timeout) with
  | some chunk => pure chunk
  | none => raise .timeoutError

end BleAtHost.Client
