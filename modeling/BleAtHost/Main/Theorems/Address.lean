import Mathlib.Data.Nat.Digits.Defs
import BleAtHost.Lemmas.Uuid
import BleAtHost.Main.System

/-!
# Addresses of `AT+STARTCON`

`parse_connect_mac` reads an address that begins with `0x` by six conversions `%2x`, which take blanks and a sign
before the digits.
-/

namespace BleAtHost.Main

variable {env : Env} {text : Text} {ch : Byte}

/-- `0x` or `0X` and twelve more characters. -/
structure HexForm (text : Text) : Prop where
  length : text.length = 14
  zero : text.head? = some 48
  letter : text[1]? = some 120 ∨ text[1]? = some 88

/-- The number that a string of hexadecimal digits denotes, the most significant digit first. -/
def hexNumber (digits : Text) : Nat := Nat.ofDigits 16 (digits.reverse.map hexValue)

/-- Accepted are the texts with twelve digits, and the bytes are those of the number, the least significant first. -/
structure ParsedExactly (env : Env) (text : Text) : Prop where
  accepted : (parseConnectMac env text).isSome ↔ isHexText (text.drop 2)
  bytes : isHexText (text.drop 2) → ∃ val, parseConnectMac env text = some val ∧ val.length = 6 ∧
    Nat.ofDigits 256 (val.map UInt8.toNat) = hexNumber (text.drop 2)

/-- A number begins here: blanks, a sign and a digit. -/
def NumberAt (text : Text) : Prop :=
  ∃ blanks sign digit rest, (∀ ch ∈ blanks, isSpace ch) ∧ sign ∈ [[], ascii "+", ascii "-"] ∧ isXDigit digit ∧
    text = blanks ++ sign ++ digit :: rest

/-- A number begins at each of the six places, although not every character is a digit. -/
structure Lenient (tail : Text) : Prop where
  foreign : ¬isHexText tail
  numbers : ∀ i < 6, NumberAt (tail.drop (i * 2))

/-! ## One conversion -/

/-- What the conversion makes of the text behind the blanks. -/
def scanField (rest : Text) : Option Nat :=
  let field := rest.take 2
  let negative := field.head? == some 45
  let digits := (if negative || field.head? == some 43 then field.tail else field).takeWhile isXDigit
  if digits = [] then none
  else
    let value := digits.foldl (fun acc ch => acc * 16 + hexValue ch) 0
    some (if negative then (2 ^ 32 - value) % 2 ^ 32 else value)

theorem sscanf2x_eq (text : Text) : sscanf2x text = scanField (text.dropWhile isSpace) := rfl

theorem scanField_digit {digit : Byte} {rest : Text} (h : isXDigit digit) : (scanField (digit :: rest)).isSome := by
  have hplain : (digit == 45) = false ∧ (digit == 43) = false := by
    constructor
    · exact beq_false_of_ne (hexChar h).hyphen
    · refine beq_false_of_ne ?_
      rintro rfl
      revert h
      decide
  simp [scanField, hplain.1, hplain.2, h]

theorem scanField_signed {sign digit : Byte} {rest : Text} (hs : sign = 43 ∨ sign = 45) (h : isXDigit digit) :
    (scanField (sign :: digit :: rest)).isSome := by
  rcases hs with rfl | rfl
  · simp [scanField, h]
  · simp [scanField, h]

/-- A digit is first, or second behind a sign. -/
theorem scanField_cases {rest : Text} (h : (scanField rest).isSome) :
    (∃ digit rest', isXDigit digit ∧ rest = digit :: rest') ∨
      ∃ sign digit rest', (sign = 43 ∨ sign = 45) ∧ isXDigit digit ∧ rest = sign :: digit :: rest' := by
  cases rest with
  | nil => simp [scanField] at h
  | cons first rest =>
      by_cases hs : first = 43 ∨ first = 45
      · cases rest with
        | nil => rcases hs with rfl | rfl <;> simp [scanField] at h
        | cons second rest =>
            have hd : isXDigit second := by
              by_contra hd
              rcases hs with rfl | rfl <;> simp [scanField, hd] at h
            exact .inr ⟨first, second, rest, hs, hd, rfl⟩
      · have hd : isXDigit first := by
          by_contra hd
          simp only [not_or] at hs
          simp [scanField, hs.1, hs.2, hd] at h
        exact .inl ⟨first, rest, hd, rfl⟩

theorem dropWhile_blanks {blanks rest : Text} (hb : ∀ ch ∈ blanks, isSpace ch) (hr : ∀ ch ∈ rest.head?, isSpace ch = false) :
    (blanks ++ rest).dropWhile isSpace = rest := by
  rw [List.dropWhile_append_of_pos hb]
  cases rest with
  | nil => rfl
  | cons ch rest => simp [hr ch (by simp)]

/-- A conversion succeeds where a number begins. -/
theorem scanned_iff (text : Text) : (sscanf2x text).isSome ↔ NumberAt text := by
  rw [sscanf2x_eq]
  constructor
  · intro h
    have hsplit : text.takeWhile isSpace ++ text.dropWhile isSpace = text := List.takeWhile_append_dropWhile
    have hblank : ∀ ch ∈ text.takeWhile isSpace, isSpace ch := fun ch hm => List.mem_takeWhile_imp hm
    rcases scanField_cases h with ⟨digit, rest, hd, he⟩ | ⟨sign, digit, rest, hs, hd, he⟩
    · exact ⟨_, [], digit, rest, hblank, by simp, hd, by rw [List.append_nil, ← he, hsplit]⟩
    · refine ⟨_, [sign], digit, rest, hblank, ?_, hd, by rw [List.append_assoc, List.singleton_append, ← he, hsplit]⟩
      rcases hs with rfl | rfl
      · decide
      · decide
  · rintro ⟨blanks, sign, digit, rest, hb, hs, hd, rfl⟩
    rw [List.append_assoc]
    have hspace : isSpace digit = false := (hexChar hd).space
    rcases List.mem_cons.mp hs with rfl | hs
    · rw [List.nil_append, dropWhile_blanks hb (by simpa using hspace)]
      exact scanField_digit hd
    · have hsign : sign = [43] ∨ sign = [45] := by simpa [ascii] using hs
      rcases hsign with rfl | rfl
      · rw [List.singleton_append, dropWhile_blanks hb (by simp [isSpace])]
        exact scanField_signed (.inl rfl) hd
      · rw [List.singleton_append, dropWhile_blanks hb (by simp [isSpace])]
        exact scanField_signed (.inr rfl) hd

/-- Two digits give the value of a byte. -/
theorem sscanf2x_digits {a b : Byte} {rest : Text} (ha : isXDigit a) (hb : isXDigit b) :
    sscanf2x (a :: b :: rest) = some (hexValue a * 16 + hexValue b) := by
  have hplain : (a == 43) = false := by
    refine beq_false_of_ne ?_
    rintro rfl
    revert ha
    decide
  rw [sscanf2x_eq, List.dropWhile_cons_of_neg (by simp [(hexChar ha).space])]
  simp [scanField, ha, hb, (hexChar ha).hyphen, hplain]

/-! ## Six conversions -/

theorem isSome_mapM {α β : Type} (f : α → Option β) (l : List α) : (l.mapM f).isSome ↔ ∀ a ∈ l, (f a).isSome := by
  induction l with
  | nil => simp
  | cons a l ih =>
      rw [List.mapM_cons]
      cases hf : f a with
      | none => simp [hf]
      | some b =>
          rw [List.forall_mem_cons, hf, ← ih]
          cases l.mapM f with
          | none => simp
          | some bs => simp

theorem parseConnectMac_hex (env : Env) (h : HexForm text) :
    parseConnectMac env text =
      ((List.range 6).mapM fun i => sscanf2x (text.drop (2 + i * 2))).map fun values => (values.map UInt8.ofNat).reverse := by
  have hform : text.length = 14 ∧ text.head? = some 48 ∧ (text[1]? = some 120 ∨ text[1]? = some 88) :=
    ⟨h.length, h.zero, h.letter⟩
  rw [parseConnectMac, if_pos hform]
  cases (List.range 6).mapM fun i => sscanf2x (text.drop (2 + i * 2)) with
  | none => rfl
  | some values => rfl

theorem accepted_iff (env : Env) (h : HexForm text) :
    (parseConnectMac env text).isSome ↔ ∀ i < 6, NumberAt ((text.drop 2).drop (i * 2)) := by
  rw [parseConnectMac_hex env h, Option.isSome_map, isSome_mapM]
  simp only [List.mem_range, List.drop_drop, scanned_iff]

/-- The values of the bytes that pairs of digits denote. -/
def pairs : Text → List Nat
  | a :: b :: rest => (hexValue a * 16 + hexValue b) :: pairs rest
  | _ => []

theorem exists_pair {n : Nat} {digits : Text} (hlen : digits.length = (n + 1) * 2) :
    ∃ a b rest, digits = a :: b :: rest ∧ rest.length = n * 2 := by
  rcases digits with _ | ⟨a, _ | ⟨b, rest⟩⟩
  · simp at hlen
  · simp at hlen
    omega
  · simp at hlen
    exact ⟨a, b, rest, rfl, by omega⟩

/-- The digits are taken in pairs. -/
theorem scanned_pairs {n : Nat} {digits : Text} (hlen : digits.length = n * 2) (hhex : isHexText digits) :
    ((List.range n).mapM fun i => sscanf2x (digits.drop (i * 2))) = some (pairs digits) := by
  induction n generalizing digits with
  | zero =>
      have hnil : digits = [] := List.length_eq_zero_iff.mp (by omega)
      rw [hnil]
      rfl
  | succ n ih =>
      obtain ⟨a, b, rest, rfl, hrest⟩ := exists_pair hlen
      simp only [isHexText, List.all_cons, Bool.and_eq_true] at hhex
      have hpairs := ih hrest hhex.2.2
      have hdrop : ∀ i, (a :: b :: rest).drop ((i + 1) * 2) = rest.drop (i * 2) := by
        intro i
        rw [show (i + 1) * 2 = i * 2 + 2 by omega, List.drop_succ_cons, List.drop_succ_cons]
      rw [List.range_succ_eq_map, List.mapM_cons, List.mapM_map]
      simp only [Nat.zero_mul, List.drop_zero, sscanf2x_digits hhex.1 hhex.2.1, Function.comp_def, Nat.succ_eq_add_one,
        hdrop, hpairs]
      rfl

theorem length_pairs {n : Nat} {digits : Text} (hlen : digits.length = n * 2) : (pairs digits).length = n := by
  induction n generalizing digits with
  | zero =>
      rw [List.length_eq_zero_iff.mp (show digits.length = 0 by omega)]
      rfl
  | succ n ih =>
      obtain ⟨a, b, rest, rfl, hrest⟩ := exists_pair hlen
      rw [pairs, List.length_cons, ih hrest]

/-- Two digits to the base 16 are one to the base 256. -/
theorem ofDigits_pairs {n : Nat} {digits : Text} (hlen : digits.length = n * 2) :
    Nat.ofDigits 256 (pairs digits).reverse = hexNumber digits := by
  induction n generalizing digits with
  | zero =>
      rw [List.length_eq_zero_iff.mp (show digits.length = 0 by omega)]
      rfl
  | succ n ih =>
      obtain ⟨a, b, rest, rfl, hrest⟩ := exists_pair hlen
      have hpower : 256 ^ n = 16 ^ (n * 2) := by
        rw [Nat.mul_comm, pow_mul]
        rfl
      rw [pairs, List.reverse_cons, Nat.ofDigits_append, ih hrest, List.length_reverse, length_pairs hrest, hpower]
      simp only [hexNumber, List.reverse_cons, List.append_assoc, List.map_append, Nat.ofDigits_append, List.length_map,
        List.length_reverse, hrest, List.map_cons, List.map_nil, List.singleton_append, Nat.ofDigits_cons, Nat.ofDigits_nil]
      ring

theorem lt_of_mem_pairs {digits : Text} (hhex : isHexText digits) {v : Nat} (hv : v ∈ pairs digits) : v < 256 := by
  induction digits using pairs.induct with
  | case1 a b rest ih =>
      simp only [isHexText, List.all_cons, Bool.and_eq_true] at hhex
      rcases List.mem_cons.mp hv with rfl | hv
      · have ha := (hexCase hhex.1).value
        have hb := (hexCase hhex.2.1).value
        omega
      · exact ih hhex.2.2 hv
  | case2 digits hshort =>
      rw [pairs] at hv
      · cases hv
      · exact hshort

theorem parsed_of_digits (env : Env) (h : HexForm text) (hhex : isHexText (text.drop 2)) :
    ∃ val, parseConnectMac env text = some val ∧ val.length = 6 ∧
      Nat.ofDigits 256 (val.map UInt8.toNat) = hexNumber (text.drop 2) := by
  have hlen : (text.drop 2).length = 6 * 2 := by rw [List.length_drop, h.length]
  refine ⟨((pairs (text.drop 2)).map UInt8.ofNat).reverse, ?_, ?_, ?_⟩
  · rw [parseConnectMac_hex env h]
    simp only [← List.drop_drop, scanned_pairs hlen hhex, Option.map_some]
  · rw [List.length_reverse, List.length_map, length_pairs hlen]
  · rw [← ofDigits_pairs hlen, List.map_reverse, List.map_map]
    have hbytes : (pairs (text.drop 2)).map (UInt8.toNat ∘ UInt8.ofNat) = pairs (text.drop 2) := by
      refine (List.map_congr_left fun v hv => ?_).trans (List.map_id _)
      exact UInt8.toNat_ofNat_of_lt' (lt_of_mem_pairs hhex hv)
    rw [hbytes]

/-! ## Result -/

/-- The form is parsed exactly as long as no blank and no sign stands in for a digit. -/
theorem parsed_exactly_iff (env : Env) (h : HexForm text) : ParsedExactly env text ↔ ¬Lenient (text.drop 2) := by
  constructor
  · intro hexact hlenient
    exact hlenient.foreign (hexact.accepted.mp ((accepted_iff env h).mpr hlenient.numbers))
  · intro hstrict
    refine ⟨⟨fun hsome => ?_, fun hhex => ?_⟩, parsed_of_digits env h⟩
    · by_contra hforeign
      exact hstrict ⟨hforeign, (accepted_iff env h).mp hsome⟩
    · obtain ⟨val, hval, _⟩ := parsed_of_digits env h hhex
      rw [hval]
      rfl

theorem parsed_exactly_digits : ParsedExactly (stackRefusing []) (ascii "0x0123456789aB") :=
  (parsed_exactly_iff (stackRefusing []) ⟨by decide, by decide, .inl (by decide)⟩).mpr fun h => h.foreign (by decide)

/-- Six signs and six digits are taken for an address. -/
theorem signed_address_accepted :
    parseConnectMac (stackRefusing []) (ascii "0x+1+2+3+4+5+6") = some [6, 5, 4, 3, 2, 1] ∧
      ¬ParsedExactly (stackRefusing []) (ascii "0x+1+2+3+4+5+6") := by
  have hparsed : parseConnectMac (stackRefusing []) (ascii "0x+1+2+3+4+5+6") = some [6, 5, 4, 3, 2, 1] := by decide
  refine ⟨hparsed, fun h => ?_⟩
  have hhex := h.accepted.mp (by rw [hparsed]; rfl)
  revert hhex
  decide

end BleAtHost.Main
