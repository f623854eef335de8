import Mathlib.Data.List.TakeWhile
import Mathlib.Data.Nat.Digits.Defs
import BleAtHost.AtHost.State

/-!
# Numeric arguments

`parse_uint16_value` hands its text to `strtoul`, which negates modulo 2^32 where the text has a minus sign. A
negative literal whose magnitude is just below 2^32 passes the range test as a small positive number.
-/

namespace BleAtHost.AtHost

/-! ## Literals -/

inductive Sign where
  | none
  | plus
  | minus
deriving DecidableEq, Repr

def Sign.text : Sign → Text
  | .none => []
  | .plus => [43]
  | .minus => [45]

/-- A decimal integer literal. -/
structure Literal where
  blank : Text
  sign : Sign
  digits : Text
  isBlank : ∀ ch ∈ blank, isSpace ch
  nonempty : digits ≠ []
  isDigits : ∀ ch ∈ digits, isDigit ch

/-- The number that a string of digits denotes. -/
def magnitude (digits : Text) : Nat := Nat.ofDigits 10 (digits.reverse.map fun ch => ch.toNat - 48)

/-- What `strtoul` makes of a sign and a number: it saturates, and a minus negates modulo 2^32. -/
def convert (sign : Sign) (n : Nat) : Nat :=
  if 2 ^ 32 ≤ n then 2 ^ 32 - 1 else if sign = .minus then (2 ^ 32 - n) % 2 ^ 32 else n

namespace Literal

def text (l : Literal) : Text := l.blank ++ (l.sign.text ++ l.digits)

/-- The mathematical value. -/
def value (l : Literal) : Int :=
  match l.sign with
  | .minus => -(magnitude l.digits : Int)
  | _ => magnitude l.digits

def converted (l : Literal) : Nat := convert l.sign (magnitude l.digits)

end Literal

theorem not_isSpace_of_isDigit {ch : Byte} (h : isDigit ch) : isSpace ch = false := by
  simp only [isDigit, Bool.and_eq_true, decide_eq_true_eq, UInt8.le_iff_toNat_le] at h
  rw [Bool.eq_false_iff]
  intro hs
  simp only [isSpace, Bool.or_eq_true, beq_iff_eq, Bool.and_eq_true, decide_eq_true_eq, UInt8.le_iff_toNat_le] at hs
  rcases hs with rfl | hs
  · have hlow := h.1
    simp at hlow
  · have hlow := h.1
    have hhigh := hs.2
    simp at hlow hhigh
    omega

theorem dropWhile_of_head {p : Byte → Bool} {text : Text} (h : ∀ ch ∈ text.head?, p ch = false) :
    text.dropWhile p = text := by
  cases text with
  | nil => rfl
  | cons ch text => exact List.dropWhile_cons_of_neg (by simpa using h ch rfl)

/-- The blanks end where the sign or the digits begin. -/
theorem Literal.dropWhile_text (l : Literal) : l.text.dropWhile isSpace = l.sign.text ++ l.digits := by
  have hblank : l.blank.dropWhile isSpace = [] := List.dropWhile_eq_nil_iff.mpr l.isBlank
  have hrest : (l.sign.text ++ l.digits).dropWhile isSpace = l.sign.text ++ l.digits := by
    refine dropWhile_of_head fun ch hch => ?_
    cases hs : l.sign with
    | none =>
        rw [hs] at hch
        exact not_isSpace_of_isDigit (l.isDigits ch (List.mem_of_mem_head? hch))
    | plus =>
        rw [hs] at hch
        cases hch
        rfl
    | minus =>
        rw [hs] at hch
        cases hch
        rfl
  rw [Literal.text, List.dropWhile_append, hblank, hrest]
  rfl

/-! ## Conversion -/

theorem magnitude_cons (ch : Byte) (digits : Text) :
    magnitude (ch :: digits) = (ch.toNat - 48) * 10 ^ digits.length + magnitude digits := by
  rw [magnitude, List.reverse_cons, List.map_append, Nat.ofDigits_append, magnitude]
  simp [Nat.ofDigits_singleton]
  ring

theorem decimalPrefix_eq (acc : Nat) (text : Text) :
    decimalPrefix acc text =
      (acc * 10 ^ (text.takeWhile isDigit).length + magnitude (text.takeWhile isDigit), text.dropWhile isDigit) := by
  induction text generalizing acc with
  | nil => simp [decimalPrefix, magnitude]
  | cons ch text ih =>
      rw [decimalPrefix]
      split
      · rename_i hd
        rw [ih, List.takeWhile_cons_of_pos hd, List.dropWhile_cons_of_pos hd, magnitude_cons, List.length_cons]
        congr 1
        ring
      · rename_i hd
        rw [List.takeWhile_cons_of_neg hd, List.dropWhile_cons_of_neg hd]
        simp [magnitude]

def signOf : Text → Sign
  | 45 :: _ => .minus
  | 43 :: _ => .plus
  | _ => .none

theorem signOf_text {text : Text} : (signOf text).text ++ text.drop (signOf text).text.length = text := by
  unfold signOf
  split
  · rfl
  · rfl
  · rfl

theorem signOf_of_ne {ch : Byte} {text : Text} (hm : ch ≠ 45) (hp : ch ≠ 43) : signOf (ch :: text) = .none := by
  unfold signOf
  split
  · rename_i he
    exact absurd (List.cons.inj he).1 hm
  · rename_i he
    exact absurd (List.cons.inj he).1 hp
  · rfl

theorem ne_of_isDigit {ch sign : Byte} (h : isDigit ch) (hs : isDigit sign = false) : ch ≠ sign := by
  rintro rfl
  rw [h] at hs
  cases hs

theorem Literal.signOf_eq (l : Literal) : signOf (l.sign.text ++ l.digits) = l.sign := by
  cases hs : l.sign with
  | plus => rfl
  | minus => rfl
  | none =>
      obtain ⟨d, digits, hd⟩ := List.exists_cons_of_ne_nil l.nonempty
      have hdigit := l.isDigits d (by rw [hd]; exact List.mem_cons_self)
      rw [hd]
      exact signOf_of_ne (ne_of_isDigit hdigit (by decide)) (ne_of_isDigit hdigit (by decide))

theorem strtoul_eq {text digits : Text} (hd : (text.dropWhile isSpace).drop
      (signOf (text.dropWhile isSpace)).text.length = digits) :
    strtoul text =
      if digits.takeWhile isDigit = [] then (0, text)
      else (convert (signOf (text.dropWhile isSpace)) (magnitude (digits.takeWhile isDigit)), digits.dropWhile isDigit) := by
  subst hd
  simp only [strtoul]
  generalize text.dropWhile isSpace = unsigned
  have hsign : (if (unsigned.head? == some 45 || unsigned.head? == some 43) = true then unsigned.tail else unsigned) =
      unsigned.drop (signOf unsigned).text.length ∧ ((unsigned.head? == some 45) = true ↔ signOf unsigned = .minus) := by
    cases unsigned with
    | nil => exact ⟨rfl, by decide⟩
    | cons ch unsigned =>
        by_cases h45 : ch = 45
        · subst h45
          exact ⟨rfl, by simp [signOf]⟩
        · by_cases h43 : ch = 43
          · subst h43
            exact ⟨rfl, by simp [signOf]⟩
          · rw [signOf_of_ne h45 h43]
            simp [h45, h43, Sign.text]
  rw [hsign.1]
  generalize unsigned.drop (signOf unsigned).text.length = digits
  cases digits with
  | nil => rfl
  | cons ch digits =>
      by_cases hdigit : isDigit ch
      · simp only [hdigit, Bool.not_true, Bool.false_eq_true, if_false, decimalPrefix_eq, Nat.zero_mul, Nat.zero_add]
        have hne : (ch :: digits).takeWhile isDigit ≠ [] := by simp [hdigit]
        rw [if_neg hne]
        unfold convert
        simp only [hsign.2]
        split
        · rfl
        · split
          · rfl
          · rfl
      · simp [hdigit]

theorem Literal.strtoul_text (l : Literal) : strtoul l.text = (l.converted, []) := by
  have hdigits : (l.text.dropWhile isSpace).drop (signOf (l.text.dropWhile isSpace)).text.length = l.digits := by
    rw [l.dropWhile_text, l.signOf_eq, List.drop_left]
  have htake : l.digits.takeWhile isDigit = l.digits := List.takeWhile_eq_self_iff.mpr l.isDigits
  have hdrop : l.digits.dropWhile isDigit = [] := List.dropWhile_eq_nil_iff.mpr l.isDigits
  rw [strtoul_eq hdigits, htake, if_neg l.nonempty, hdrop, l.dropWhile_text, l.signOf_eq, Literal.converted]

/-- Exactly the literals whose conversion fits into 16 bits are parsed. -/
theorem parseUint16Value_eq_some {text : Text} {v : Nat} :
    parseUint16Value text = some v ↔ ∃ l : Literal, l.text = text ∧ l.converted = v ∧ v ≤ 65535 := by
  constructor
  · intro h
    generalize hd : (text.dropWhile isSpace).drop (signOf (text.dropWhile isSpace)).text.length = digits
    have hconv := strtoul_eq hd
    unfold parseUint16Value at h
    split at h
    · cases h
    · rw [hconv] at h
      by_cases hnone : digits.takeWhile isDigit = []
      · rw [if_pos hnone] at h
        simp at h
      · rw [if_neg hnone] at h
        simp only [Option.ite_none_left_eq_some, Bool.or_eq_true, decide_eq_true_eq, not_or, not_lt,
          ne_eq, not_not, Option.some.injEq] at h
        obtain ⟨⟨⟨-, hrest⟩, hle⟩, rfl⟩ := h
        have hall : ∀ ch ∈ digits, isDigit ch := List.dropWhile_eq_nil_iff.mp (by simpa using hrest)
        have htake : digits.takeWhile isDigit = digits := List.takeWhile_eq_self_iff.mpr hall
        rw [htake] at hnone hle
        refine ⟨⟨text.takeWhile isSpace, signOf (text.dropWhile isSpace), digits, ?_, hnone, hall⟩, ?_, ?_, ?_⟩
        · exact fun ch hch => List.mem_takeWhile_imp hch
        · have htext : text.takeWhile isSpace ++ ((signOf (text.dropWhile isSpace)).text ++ digits) = text := by
            rw [← hd, signOf_text, List.takeWhile_append_dropWhile]
          exact htext
        · rw [Literal.converted, htake]
        · rw [htake]
          exact hle
  · rintro ⟨l, rfl, rfl, hle⟩
    have hne : l.text ≠ [] := by
      intro he
      have hlen := congrArg List.length he
      have hpos := List.length_pos_iff.mpr l.nonempty
      simp only [Literal.text, List.length_append, List.length_nil] at hlen
      omega
    rw [parseUint16Value, if_neg hne, l.strtoul_text]
    simp [hne.symm, Nat.not_lt.mpr hle]

/-! ## Results -/

/-- A text is parsed only as the number that it denotes, and plain digits within the range are parsed. -/
def MeansWhatItSays (text : Text) : Prop :=
  (∀ v, parseUint16Value text = some v → v ≤ 65535 ∧ ∃ l : Literal, l.text = text ∧ l.value = v) ∧
    (text ≠ [] → (∀ ch ∈ text, isDigit ch) → magnitude text ≤ 65535 →
      parseUint16Value text = some (magnitude text))

/-- A negative literal that is within the range modulo 2^32. -/
def WrapsAround (text : Text) : Prop :=
  ∃ l : Literal, l.text = text ∧ l.sign = .minus ∧ 2 ^ 32 - 65535 ≤ magnitude l.digits ∧ magnitude l.digits < 2 ^ 32

/-- The text determines the sign. -/
theorem Literal.sign_eq {l l' : Literal} (h : l.text = l'.text) : l.sign = l'.sign := by
  rw [← l.signOf_eq, ← l.dropWhile_text, h, l'.dropWhile_text, l'.signOf_eq]

theorem WrapsAround.not_means {text : Text} (h : WrapsAround text) : ¬MeansWhatItSays text := by
  obtain ⟨l, rfl, hsign, hlow, hhigh⟩ := h
  intro hmeans
  have hconverted : l.converted = 2 ^ 32 - magnitude l.digits := by
    rw [Literal.converted, convert, if_neg (Nat.not_le.mpr hhigh), if_pos hsign]
    exact Nat.mod_eq_of_lt (by omega)
  have hparsed : parseUint16Value l.text = some (2 ^ 32 - magnitude l.digits) :=
    parseUint16Value_eq_some.mpr ⟨l, rfl, hconverted, by omega⟩
  obtain ⟨-, l', htext, hvalue⟩ := hmeans.1 _ hparsed
  have hminus : l'.sign = .minus := (Literal.sign_eq htext).trans hsign
  rw [Literal.value, hminus] at hvalue
  dsimp only at hvalue
  omega

theorem Literal.value_of_fits (l : Literal) (hfits : l.converted ≤ 65535) (hw : ¬WrapsAround l.text) :
    l.value = l.converted := by
  rw [Literal.converted, convert] at hfits ⊢
  split at hfits
  · omega
  · rename_i hsmall
    rw [if_neg hsmall, Literal.value]
    split at hfits
    · rename_i hminus
      rw [if_pos hminus, hminus]
      have hnot : ¬(2 ^ 32 - 65535 ≤ magnitude l.digits ∧ magnitude l.digits < 2 ^ 32) :=
        fun hm => hw ⟨l, rfl, hminus, hm.1, hm.2⟩
      have hzero : magnitude l.digits = 0 := by
        by_contra hne
        rw [Nat.mod_eq_of_lt (by omega)] at hfits
        omega
      simp [hzero]
    · rename_i hminus
      rw [if_neg hminus]
      cases hs : l.sign with
      | minus => exact absurd hs hminus
      | none => rfl
      | plus => rfl

theorem parse_plain {text : Text} (hne : text ≠ []) (hall : ∀ ch ∈ text, isDigit ch) (hle : magnitude text ≤ 65535) :
    parseUint16Value text = some (magnitude text) := by
  have hconvert : convert .none (magnitude text) = magnitude text := by
    rw [convert, if_neg (by omega), if_neg (by simp)]
  exact parseUint16Value_eq_some.mpr ⟨⟨[], .none, text, by simp, hne, hall⟩, rfl, hconvert, hle⟩

/-- Every text but the negative literals that wrap around is parsed as what it says. -/
theorem means_what_it_says_iff (text : Text) : MeansWhatItSays text ↔ ¬WrapsAround text := by
  constructor
  · exact fun h hw => hw.not_means h
  · refine fun hw => ⟨fun v hv => ?_, parse_plain⟩
    obtain ⟨l, rfl, rfl, hle⟩ := parseUint16Value_eq_some.mp hv
    exact ⟨hle, l, rfl, l.value_of_fits hle hw⟩

/-- `-4294967295` is read as 1. -/
theorem negative_literal_parsed :
    parseUint16Value (ascii "-4294967295") = some 1 ∧ ¬MeansWhatItSays (ascii "-4294967295") :=
  ⟨by decide, WrapsAround.not_means
    ⟨⟨[], .minus, ascii "4294967295", by simp, by decide, List.all_eq_true.mp (by decide)⟩, rfl, rfl,
      by decide, by decide⟩⟩

end BleAtHost.AtHost
