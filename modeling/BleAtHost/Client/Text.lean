import BleAtHost.Common

/-!
# Text of the client

Strings of Python and the methods of `str` and `bytes` that `ble_at.py` uses. A string is the list of its code
points; text that was decoded from bytes holds no surrogates.
-/

namespace BleAtHost.Client

abbrev Str := List Char

instance : LawfulBEq Str := inferInstance

/-- A string literal. -/
def str (s : String) : Str := s.toList

def REPLACEMENT : Char := Char.ofNat 0xFFFD

/-! ## `bytes.decode(errors="replace")` -/

def isContinuation (b : Byte) : Bool := 0x80 ≤ b && b ≤ 0xBF

/-- The number of bytes of a sequence, by its lead byte. -/
def sequenceLen (lead : Byte) : Nat := if lead < 0xE0 then 2 else if lead < 0xF0 then 3 else 4

/-- `b` may follow these bytes of a sequence. -/
def continues (pending : List Byte) (b : Byte) : Bool :=
  match pending with
  | [] => false
  | [lead] =>
      isContinuation b && !(lead == 0xE0 && b < 0xA0) && !(lead == 0xED && 0xA0 ≤ b) &&
        !(lead == 0xF0 && b < 0x90) && !(lead == 0xF4 && 0x90 ≤ b)
  | _ => isContinuation b

/-- The bits of the lead byte, then six bits of each byte that follows. -/
def codePoint (lead : Byte) (rest : List Byte) : Char :=
  Char.ofNat (rest.foldl (fun n b => n * 64 + b.toNat % 64) (lead.toNat % 2 ^ (7 - sequenceLen lead)))

/-- UTF-8. Of a malformed sequence the bytes that could begin a well-formed one become one replacement character
together; `pending` are those that wait. -/
def decodeFrom (pending : List Byte) : List Byte → Str
  | [] => if pending = [] then [] else [REPLACEMENT]
  | b :: rest =>
      match pending, continues pending b with
      | lead :: more, true =>
          if more.length + 2 = sequenceLen lead then codePoint lead (more ++ [b]) :: decodeFrom [] rest
          else decodeFrom (lead :: more ++ [b]) rest
      | _, _ =>
          (if pending = [] then [] else [REPLACEMENT]) ++
            if b < 0x80 then Char.ofNat b.toNat :: decodeFrom [] rest
            else if b < 0xC2 ∨ 0xF5 ≤ b then REPLACEMENT :: decodeFrom [] rest
            else decodeFrom [b] rest

def decode (bytes : List Byte) : Str := decodeFrom [] bytes

/-- `str.encode("ascii")`; `none` stands for `UnicodeEncodeError`. -/
def encodeAscii (s : Str) : Option (List Byte) :=
  if s.all fun c => c.toNat < 128 then some (s.map fun c => UInt8.ofNat c.toNat) else none

/-! ## Methods of `str` -/

/-- `str.isspace` of one character. -/
def isSpaceChar (c : Char) : Bool :=
  (9 ≤ c.toNat && c.toNat ≤ 13) || (28 ≤ c.toNat && c.toNat ≤ 32) || c.toNat == 0x85 || c.toNat == 0xA0 ||
    c.toNat == 0x1680 || (0x2000 ≤ c.toNat && c.toNat ≤ 0x200A) || c.toNat == 0x2028 || c.toNat == 0x2029 ||
    c.toNat == 0x202F || c.toNat == 0x205F || c.toNat == 0x3000

def stripBy (drop : Char → Bool) (s : Str) : Str := ((s.dropWhile drop).reverse.dropWhile drop).reverse

def strip (s : Str) : Str := stripBy isSpaceChar s

def startsWith (s pre : Str) : Bool := pre.isPrefixOf s

/-- `str.split(sep, maxsplit)` with a separator of one character. -/
def split (sep : Char) : Nat → Str → List Str
  | 0, s => [s]
  | maxsplit + 1, s =>
      match s.dropWhile (· ≠ sep) with
      | [] => [s]
      | _ :: rest => s.takeWhile (· ≠ sep) :: split sep maxsplit rest

/-- The text of an `int`. -/
def ofInt (n : Int) : Str := if n < 0 then '-' :: Nat.toDigits 10 n.natAbs else Nat.toDigits 10 n.natAbs

/-- The zeros of the sets of decimal digits. -/
def decimalZeros : List Nat :=
  [0x30, 0x660, 0x6F0, 0x7C0, 0x966, 0x9E6, 0xA66, 0xAE6, 0xB66, 0xBE6, 0xC66, 0xCE6, 0xD66, 0xDE6, 0xE50, 0xED0,
    0xF20, 0x1040, 0x1090, 0x17E0, 0x1810, 0x1946, 0x19D0, 0x1A80, 0x1A90, 0x1B50, 0x1BB0, 0x1C40, 0x1C50, 0xA620,
    0xA8D0, 0xA900, 0xA9D0, 0xA9F0, 0xAA50, 0xABF0, 0xFF10, 0x104A0, 0x10D30, 0x11066, 0x110F0, 0x11136, 0x111D0,
    0x112F0, 0x11450, 0x114D0, 0x11650, 0x116C0, 0x11730, 0x118E0, 0x11950, 0x11C50, 0x11D50, 0x11DA0, 0x11F50,
    0x16A60, 0x16AC0, 0x16B50, 0x1D7CE, 0x1D7D8, 0x1D7E2, 0x1D7EC, 0x1D7F6, 0x1E140, 0x1E2F0, 0x1E4F0, 0x1E950,
    0x1FBF0]

def digitValue (c : Char) : Option Nat :=
  (decimalZeros.find? fun first => first ≤ c.toNat && c.toNat < first + 10).map fun first => c.toNat - first

/-- Digits with single underscores between them. -/
def parseDigits : Nat → Str → Option Nat
  | n, [] => some n
  | n, '_' :: c :: rest =>
      match digitValue c with
      | some d => parseDigits (n * 10 + d) rest
      | none => none
  | n, c :: rest =>
      match digitValue c with
      | some d => parseDigits (n * 10 + d) rest
      | none => none

def parseNat : Str → Option Nat
  | c :: rest =>
      match digitValue c with
      | some d => parseDigits d rest
      | none => none
  | [] => none

/-- `int(s)`; `none` stands for `ValueError`. The separators 28 to 31 are no space here. -/
def toInt (s : Str) : Option Int :=
  match stripBy (fun c => isSpaceChar c && !(28 ≤ c.toNat && c.toNat ≤ 31)) s with
  | '-' :: rest => (parseNat rest).map fun n => -(n : Int)
  | '+' :: rest => (parseNat rest).map fun n => (n : Int)
  | rest => (parseNat rest).map fun n => (n : Int)

end BleAtHost.Client
