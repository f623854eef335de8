import BleAtHost.Common

/-!
# The AT parser: state, operations and text functions

The first part of `at_host.c`. The parser knows the application only through two tables of functions, so it is
modelled over an arbitrary context type. `World` adds the sequence of calls made through the tables, the
newest first.
-/

namespace BleAtHost.AtHost

/-- `struct at_host_ops`, over the context that the operations read and change. -/
structure Ops (σ : Type) where
  startScan : σ → Nat → Option Text → Int × σ
  connect : σ → Text → Nat → Int × σ
  disconnect : σ → Nat → Int × σ
  sendPayload : σ → Nat → List Byte → Int × σ
  getStatus : σ → BleHostStatus × σ
  getProfile : σ → BleProfile × σ
  setProfile : σ → Text → Text → Text → Int × σ
  setMtu : σ → Nat → Int × σ
  getMtu : σ → Nat × σ
  requestMtu : σ → Nat → Int × σ
  setConnParams : σ → Nat → Nat → Nat → Nat → Nat → Int × σ
  enterDataMode : σ → Nat → Int × σ
  getStreamStats : σ → BleStreamStats × σ

/-- `struct at_host_tx`. -/
structure Tx (σ : Type) where
  line : σ → Text → σ
  raw : σ → List Byte → σ

/-- A call through one of the tables, with its arguments. -/
inductive Call where
  | startScan (durationS : Nat) (filterName : Option Text)
  | connect (mac : Text) (addrType : Nat)
  | disconnect (connIndex : Nat)
  | sendPayload (connIndex : Nat) (data : List Byte)
  | getStatus
  | getProfile
  | setProfile (serviceUuid notifyUuid writeUuid : Text)
  | setMtu (mtu : Nat)
  | getMtu
  | requestMtu (connIndex : Nat)
  | setConnParams (connIndex minInterval maxInterval latency timeout : Nat)
  | enterDataMode (connIndex : Nat)
  | getStreamStats
  | line (text : Text)
  | raw (data : List Byte)
deriving DecidableEq, Repr

/-- `struct at_host_state` without its tables. `lineBuffer` and `payloadBuffer` hold what is stored so far, so
`line_length` and `payload_received` are their lengths. -/
structure State where
  lineBuffer : List Byte
  lineOverflow : Bool
  payloadMode : Bool
  payloadBuffer : List Byte
  payloadExpected : Nat
  payloadConnIndex : Nat
deriving DecidableEq, Repr

def State.init : State := ⟨[], false, false, [], 0, 0⟩

/-- `sizeof(line_buffer)`. -/
def LINE_BUFFER_SIZE : Nat := 160

structure World (σ : Type) where
  host : State
  ctx : σ
  trace : List Call

inductive ErrorKind where
  | invalidCommand
  | invalidParameters
  | functionError
deriving DecidableEq, Repr

inductive CommandResult where
  | none
  | enterPayload
deriving DecidableEq, Repr

/-! ## Text -/

/-- `equals_ignore_case`. -/
def equalsIgnoreCase (lhs rhs : Text) : Bool := lhs.map toUpper == rhs.map toUpper

/-- `starts_with_ignore_case`. -/
def startsWithIgnoreCase (text start : Text) : Bool := (text.take start.length).map toUpper == start.map toUpper

/-- `trim_whitespace`. -/
def trimWhitespace (text : Text) : Text := ((text.dropWhile isSpace).reverse.dropWhile isSpace).reverse

/-- The value of the decimal digits at the start of a text and what follows them. -/
def decimalPrefix (acc : Nat) : Text → Nat × Text
  | [] => (acc, [])
  | ch :: rest => if isDigit ch then decimalPrefix (acc * 10 + (ch.toNat - 48)) rest else (acc, ch :: rest)

/-- `strtoul(text, &end, 10)` with a 32-bit `unsigned long`: the value and the text at `end`. -/
def strtoul (text : Text) : Nat × Text :=
  let unsigned := text.dropWhile isSpace
  let negative := unsigned.head? == some 45
  let digits := if negative || unsigned.head? == some 43 then unsigned.tail else unsigned
  match digits with
  | [] => (0, text)
  | ch :: _ =>
      if !isDigit ch then (0, text)
      else
        let (value, rest) := decimalPrefix 0 digits
        if 2 ^ 32 ≤ value then (2 ^ 32 - 1, rest)
        else if negative then ((2 ^ 32 - value) % 2 ^ 32, rest)
        else (value, rest)

/-- `parse_uint16_value`. -/
def parseUint16Value (text : Text) : Option Nat :=
  if text = [] then none
  else
    let (parsed, rest) := strtoul text
    if rest = text || rest ≠ [] || 65535 < parsed then none else some parsed

/-- `split_args`: at most `maxArgs` fields; a comma at the end of the text opens no further field. -/
def splitArgs : Nat → Text → List Text
  | 0, _ => []
  | _ + 1, [] => []
  | maxArgs + 1, text =>
      text.takeWhile (· ≠ 44) :: splitArgs maxArgs ((text.dropWhile (· ≠ 44)).drop 1)

variable {σ : Type}

/-! ## Output -/

/-- `tx_line`. -/
def txLine (tx : Tx σ) (w : World σ) (line : Text) : World σ :=
  { w with ctx := tx.line w.ctx line, trace := .line line :: w.trace }

/-- `tx_raw`. -/
def txRaw (tx : Tx σ) (w : World σ) (data : List Byte) : World σ :=
  { w with ctx := tx.raw w.ctx data, trace := .raw data :: w.trace }

def ErrorKind.text : ErrorKind → Text
  | .invalidCommand => ascii "+ERR=Invalid Command"
  | .invalidParameters => ascii "+ERR=Invalid Parameters"
  | .functionError => ascii "+ERR=Function Error"

/-- `emit_error`. -/
def emitError (tx : Tx σ) (w : World σ) (kind : ErrorKind) : World σ := txLine tx w kind.text

/-- The kind of error that `emit_error_from_errno` reports. -/
def errorKindOf (err : Int) : ErrorKind :=
  if err = -EINVAL ∨ err = -ENOENT ∨ err = -ERANGE ∨ err = -EMSGSIZE then .invalidParameters
  else .functionError

/-- `emit_error_from_errno`. -/
def emitErrorFromErrno (tx : Tx σ) (w : World σ) (err : Int) : World σ := emitError tx w (errorKindOf err)

/-- The end of most commands: an error, or `+OK`. -/
def respond (tx : Tx σ) (w : World σ) (err : Int) : World σ :=
  if err ≠ 0 then emitErrorFromErrno tx w err else txLine tx w (ascii "+OK")

/-- Records a call with its result. -/
def World.called {ρ : Type} (w : World σ) (call : Call) (r : ρ × σ) : ρ × World σ :=
  (r.1, { w with ctx := r.2, trace := call :: w.trace })

end BleAtHost.AtHost
