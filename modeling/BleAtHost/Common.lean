import Mathlib.Algebra.Group.Nat.Defs
import Mathlib.Data.List.Basic

/-!
# Bytes, C strings and the common helpers

`app_common.c`, with the C library functions that the firmware uses on text. A C string is the list of its
bytes before the terminating NUL.
-/

namespace BleAtHost

abbrev Byte := UInt8

/-- A C string without its terminator. -/
abbrev Text := List Byte

/-- The bytes of an ASCII literal. -/
def ascii (s : String) : Text := s.toList.map fun c => UInt8.ofNat c.toNat

/-- The C string that a buffer holds: what stands before the first NUL. -/
def cString (buffer : List Byte) : Text := buffer.takeWhile (· ≠ 0)

/-- `snprintk` into a buffer of `size` bytes: the text is cut so that the terminator fits. -/
def snprintk (size : Nat) (text : Text) : Text := text.take (size - 1)

/-- `%u`. -/
def decimal (n : Nat) : Text := (Nat.toDigits 10 n).map fun c => UInt8.ofNat c.toNat

/-- `%d`. -/
def signedDecimal (n : Int) : Text := if n < 0 then 45 :: decimal n.natAbs else decimal n.natAbs

/-! ## Characters, in the C locale -/

def isSpace (ch : Byte) : Bool := ch == 32 || (9 ≤ ch && ch ≤ 13)
def isDigit (ch : Byte) : Bool := 48 ≤ ch && ch ≤ 57
def isXDigit (ch : Byte) : Bool := isDigit ch || (65 ≤ ch && ch ≤ 70) || (97 ≤ ch && ch ≤ 102)
def toUpper (ch : Byte) : Byte := if 97 ≤ ch && ch ≤ 122 then ch - 32 else ch
def toLower (ch : Byte) : Byte := if 65 ≤ ch && ch ≤ 90 then ch + 32 else ch

/-- The value of a hexadecimal digit. -/
def hexValue (ch : Byte) : Nat :=
  if isDigit ch then ch.toNat - 48 else (toUpper ch).toNat - 55

/-! ## Error numbers -/

def ENOENT : Int := 2
def EAGAIN : Int := 11
def ENOMEM : Int := 12
def EACCES : Int := 13
def EBUSY : Int := 16
def EINVAL : Int := 22
def ERANGE : Int := 34
def EALREADY : Int := 120
def EMSGSIZE : Int := 122
def ENOTCONN : Int := 128
def ENOTSUP : Int := 134

/-! ## `app_common.h` -/

/-- `BT_UUID_STR_LEN`. -/
def BLE_HOST_UUID_STR_LEN : Nat := 37
def BLE_HOST_NAME_MAX_LEN : Nat := 32
def BLE_HOST_SCAN_FILTER_MAX_LEN : Nat := 32
def BLE_HOST_SEND_MAX_LEN : Nat := 256

structure BleProfile where
  serviceUuid : Text
  notifyUuid : Text
  writeUuid : Text
deriving DecidableEq, Repr

structure BleHostConfig where
  activeProfile : BleProfile
  mtu : Nat
  connIntervalMin : Nat
  connIntervalMax : Nat
  latency : Nat
  timeout : Nat
  autoMtu : Bool
  autoSubscribe : Bool
  prefer2mPhy : Bool
  preferDle : Bool
  allowDataMode : Bool
  streamGuardTimeMs : Nat
deriving DecidableEq, Repr

structure BleHostStatus where
  connected : Bool
  ready : Bool
  mac : Text
  connCount : Nat
  dataLen : Nat
deriving DecidableEq, Repr

structure BleStreamStats where
  bytesHostToBle : Nat
  bytesBleToHost : Nat
  writeOps : Nat
  notifyOps : Nat
  usbBackpressureCount : Nat
  maxHostToBleDepth : Nat
  maxBleToHostDepth : Nat
  enterDataModeCount : Nat
  unexpectedDisconnectCount : Nat
deriving DecidableEq, Repr

/-- The counters are `uint32_t`. -/
def addU32 (n k : Nat) : Nat := (n + k) % 2 ^ 32

/-! ## UUID text -/

def isHexText (text : Text) : Bool := text.all isXDigit

/-- `normalize_uuid16`; `none` stands for `false`, which leaves the output alone. -/
def normalizeUuid16 (text : Text) (outputLen : Nat) : Option Text :=
  let digits :=
    match text with
    | 48 :: x :: rest => if x == 120 || x == 88 then rest else text
    | _ => text
  if digits.length ≠ 4 || !isHexText digits || outputLen < 7 then none
  else some (snprintk outputLen (ascii "0x" ++ digits.map toUpper))

/-- `normalize_uuid128_from_hex32`. -/
def normalizeUuid128FromHex32 (hex32 : Text) (outputLen : Nat) : Option Text :=
  if hex32.length ≠ 32 || !isHexText hex32 || outputLen < 37 then none
  else
    let lower := hex32.map toLower
    some (snprintk outputLen
      (lower.take 8 ++ ascii "-" ++ (lower.drop 8).take 4 ++ ascii "-" ++ (lower.drop 12).take 4 ++
        ascii "-" ++ (lower.drop 16).take 4 ++ ascii "-" ++ lower.drop 20))

/-- The loop of `ble_host_normalize_uuid` that drops hyphens and collects at most 32 hexadecimal digits. -/
def compactHex (compact : Text) : Text → Option Text
  | [] => some compact
  | ch :: rest =>
      if ch == 45 then compactHex compact rest
      else if !isXDigit ch || 32 ≤ compact.length then none
      else compactHex (compact ++ [ch]) rest

/-- `ble_host_normalize_uuid`. The short form is tried on the text with its trailing whitespace. -/
def bleHostNormalizeUuid (input : Text) (outputLen : Nat) : Option Text :=
  if outputLen = 0 then none
  else
    let input := input.dropWhile isSpace
    let trimmed := (input.reverse.dropWhile isSpace).reverse
    if trimmed.length = 0 then none
    else
      match (if trimmed.length ≤ 6 then normalizeUuid16 input outputLen else none) with
      | some output => some output
      | none =>
          match compactHex [] trimmed with
          | none => none
          | some compact =>
              if compact.length ≠ 32 then none else normalizeUuid128FromHex32 compact outputLen

/-! ### The output buffer

The same functions with their `bool` and the text in the output buffer as they leave it. -/

def normalizeUuid16Into (text output : Text) (outputLen : Nat) : Bool × Text :=
  let digits :=
    match text with
    | 48 :: x :: rest => if x == 120 || x == 88 then rest else text
    | _ => text
  if digits.length ≠ 4 || !isHexText digits || outputLen < 7 then (false, output)
  else (true, snprintk outputLen (ascii "0x" ++ digits.map toUpper))

def normalizeUuid128FromHex32Into (hex32 output : Text) (outputLen : Nat) : Bool × Text :=
  if hex32.length ≠ 32 || !isHexText hex32 || outputLen < 37 then (false, output)
  else
    let lower := hex32.map toLower
    (true, snprintk outputLen
      (lower.take 8 ++ ascii "-" ++ (lower.drop 8).take 4 ++ ascii "-" ++ (lower.drop 12).take 4 ++
        ascii "-" ++ (lower.drop 16).take 4 ++ ascii "-" ++ lower.drop 20))

def bleHostNormalizeUuidInto (input output : Text) (outputLen : Nat) : Bool × Text :=
  if outputLen = 0 then (false, output)
  else
    let input := input.dropWhile isSpace
    let trimmed := (input.reverse.dropWhile isSpace).reverse
    if trimmed.length = 0 then (false, output)
    else
      let (short, output) := if trimmed.length ≤ 6 then normalizeUuid16Into input output outputLen else (false, output)
      if short then (true, output)
      else
        match compactHex [] trimmed with
        | none => (false, output)
        | some compact =>
            if compact.length ≠ 32 then (false, output) else normalizeUuid128FromHex32Into compact output outputLen

/-- `ble_host_uuid_equals`. -/
def bleHostUuidEquals (lhs rhs : Text) : Bool :=
  match bleHostNormalizeUuid lhs BLE_HOST_UUID_STR_LEN, bleHostNormalizeUuid rhs BLE_HOST_UUID_STR_LEN with
  | some lhsNorm, some rhsNorm => lhsNorm == rhsNorm
  | _, _ => false

/-- A Bluetooth UUID in the form in which a GATT server gives it. -/
inductive BtUuid where
  | uuid16 (value : Nat)
  | uuid32 (value : Nat)
  | uuid128 (value : Nat)
deriving DecidableEq, Repr

/-- `n` lower-case hexadecimal digits. -/
def hexDigits : Nat → Nat → Text
  | 0, _ => []
  | n + 1, value =>
      hexDigits n (value / 16) ++
        [if value % 16 < 10 then UInt8.ofNat (48 + value % 16) else UInt8.ofNat (87 + value % 16)]

/-- Zephyr's `bt_uuid_to_str`. -/
def btUuidToStr : BtUuid → Text
  | .uuid16 value => hexDigits 4 value
  | .uuid32 value => hexDigits 8 value
  | .uuid128 value =>
      let digits := hexDigits 32 value
      digits.take 8 ++ ascii "-" ++ (digits.drop 8).take 4 ++ ascii "-" ++ (digits.drop 12).take 4 ++
        ascii "-" ++ (digits.drop 16).take 4 ++ ascii "-" ++ digits.drop 20

/-- `ble_host_format_uuid_from_bt`. -/
def bleHostFormatUuidFromBt (uuid : BtUuid) (outputLen : Nat) : Text :=
  let raw := btUuidToStr uuid
  (bleHostNormalizeUuid raw outputLen).getD (snprintk outputLen raw)

/-! ## Addresses -/

/-- `bt_addr_le_t`: the bytes of the address, the least significant first, and its type. -/
structure BtAddrLe where
  val : List Byte
  type : Nat
deriving DecidableEq, Repr

/-- `ble_host_addr_type_to_wlt`: the four address types of Zephyr are numbered alike. -/
def bleHostAddrTypeToWlt (btAddrType : Nat) : Nat :=
  match btAddrType with
  | 0 => 0
  | 1 => 1
  | 2 => 2
  | 3 => 3
  | _ => 1

/-- `ble_host_addr_type_from_wlt`. -/
def bleHostAddrTypeFromWlt (wltAddrType : Nat) : Option Nat :=
  match wltAddrType with
  | 0 => some 0
  | 1 => some 1
  | 2 => some 2
  | 3 => some 3
  | _ => none

/-- `ble_host_is_printable_ascii`. -/
def bleHostIsPrintableAscii (data : List Byte) : Bool := data.all fun ch => 32 ≤ ch && ch ≤ 126

end BleAtHost
