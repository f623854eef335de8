import Mathlib.Data.List.TakeWhile
import BleAtHost.Common

/-!
# UUID text

`ble_host_normalize_uuid` gives a text that it gives back unchanged.
-/

namespace BleAtHost

variable {text input output digits : Text} {outputLen : Nat}

/-! ## Characters -/

/-- What the normaliser needs to know of a hexadecimal digit. -/
structure HexChar (ch : Byte) : Prop where
  hex : isXDigit ch
  space : isSpace ch = false
  hyphen : ch ≠ 45
  zero : ch ≠ 0

/-- The digits of the values below 16. -/
def upperDigit (n : Nat) : Byte := if n < 10 then UInt8.ofNat (48 + n) else UInt8.ofNat (55 + n)

def lowerDigit (n : Nat) : Byte := if n < 10 then UInt8.ofNat (48 + n) else UInt8.ofNat (87 + n)

structure HexCase (ch : Byte) : Prop where
  value : hexValue ch < 16
  upper : isXDigit (toUpper ch)
  lower : isXDigit (toLower ch)
  upperDigit : toUpper ch = upperDigit (hexValue ch)
  lowerDigit : toLower ch = lowerDigit (hexValue ch)
  valueUpper : hexValue (toUpper ch) = hexValue ch
  valueLower : hexValue (toLower ch) = hexValue ch

instance (ch : Byte) : Decidable (HexChar ch) :=
  decidable_of_iff (isXDigit ch ∧ isSpace ch = false ∧ ch ≠ 45 ∧ ch ≠ 0)
    ⟨fun h => ⟨h.1, h.2.1, h.2.2.1, h.2.2.2⟩, fun h => ⟨h.1, h.2, h.3, h.4⟩⟩

instance (ch : Byte) : Decidable (HexCase ch) :=
  decidable_of_iff (hexValue ch < 16 ∧ isXDigit (toUpper ch) ∧ isXDigit (toLower ch) ∧
      toUpper ch = upperDigit (hexValue ch) ∧ toLower ch = lowerDigit (hexValue ch) ∧
      hexValue (toUpper ch) = hexValue ch ∧ hexValue (toLower ch) = hexValue ch)
    ⟨fun h => ⟨h.1, h.2.1, h.2.2.1, h.2.2.2.1, h.2.2.2.2.1, h.2.2.2.2.2.1, h.2.2.2.2.2.2⟩,
      fun h => ⟨h.1, h.2, h.3, h.4, h.5, h.6, h.7⟩⟩

/-- Checked for each of the 256 bytes. -/
theorem byte_case (ch : Byte) :
    toUpper (toUpper ch) = toUpper ch ∧ toLower (toLower ch) = toLower ch ∧ (isXDigit ch → HexChar ch ∧ HexCase ch) := by
  have hall : ∀ n : Fin 256, (fun ch : Byte => toUpper (toUpper ch) = toUpper ch ∧ toLower (toLower ch) = toLower ch ∧
      (isXDigit ch → HexChar ch ∧ HexCase ch)) (UInt8.ofFin n) := by decide +kernel
  exact hall ch.toFin

theorem hexChar {ch : Byte} (h : isXDigit ch) : HexChar ch := ((byte_case ch).2.2 h).1

theorem hexCase {ch : Byte} (h : isXDigit ch) : HexCase ch := ((byte_case ch).2.2 h).2

theorem isXDigit_toUpper {ch : Byte} (h : isXDigit ch) : isXDigit (toUpper ch) := (hexCase h).upper

theorem isXDigit_toLower {ch : Byte} (h : isXDigit ch) : isXDigit (toLower ch) := (hexCase h).lower

theorem toUpper_toUpper (ch : Byte) : toUpper (toUpper ch) = toUpper ch := (byte_case ch).1

theorem toLower_toLower (ch : Byte) : toLower (toLower ch) = toLower ch := (byte_case ch).2.1

/-! ## The two forms -/

/-- `0x` and four upper-case digits. -/
def IsUuid16 (text : Text) : Prop :=
  ∃ digits : Text, digits.length = 4 ∧ isHexText digits ∧ digits.map toUpper = digits ∧ text = ascii "0x" ++ digits

/-- Lower-case digits in groups of 8, 4, 4, 4 and 12. -/
def hyphenated (digits : Text) : Text :=
  digits.take 8 ++ ascii "-" ++ (digits.drop 8).take 4 ++ ascii "-" ++ (digits.drop 12).take 4 ++ ascii "-" ++
    (digits.drop 16).take 4 ++ ascii "-" ++ digits.drop 20

def IsUuid128 (text : Text) : Prop :=
  ∃ digits : Text, digits.length = 32 ∧ isHexText digits ∧ digits.map toLower = digits ∧ text = hyphenated digits

theorem isHexText_map {f : Byte → Byte} (hf : ∀ {ch}, isXDigit ch → isXDigit (f ch)) {text : Text}
    (h : isHexText text) : isHexText (text.map f) := by
  simp only [isHexText, List.all_eq_true, List.mem_map] at h ⊢
  rintro _ ⟨ch, hm, rfl⟩
  exact hf (h ch hm)

theorem length_hyphenated {digits : Text} (h : digits.length = 32) : (hyphenated digits).length = 36 := by
  simp [hyphenated, ascii, h]

theorem hexChar_of_mem {text : Text} (h : isHexText text) {ch : Byte} (hm : ch ∈ text) : HexChar ch :=
  hexChar (List.all_eq_true.mp h ch hm)

theorem filter_of_hex (h : isHexText digits) : digits.filter (· ≠ 45) = digits :=
  List.filter_eq_self.mpr fun ch hm => by simpa using (hexChar_of_mem h hm).hyphen

/-- The hyphens are all that the long form adds to its digits. -/
theorem filter_hyphenated {digits : Text} (h : isHexText digits) : (hyphenated digits).filter (· ≠ 45) = digits := by
  have hhyphen : (ascii "-").filter (· ≠ 45) = [] := by decide
  have hall : digits.take 8 ++ (digits.drop 8).take 4 ++ (digits.drop 12).take 4 ++ (digits.drop 16).take 4 ++
      digits.drop 20 = digits := by
    rw [← List.take_add, ← List.take_add, ← List.take_add, List.take_append_drop]
  simp only [hyphenated, List.filter_append, hhyphen, List.append_nil]
  rw [← List.filter_append, ← List.filter_append, ← List.filter_append, ← List.filter_append, hall]
  exact filter_of_hex h

theorem mem_hyphenated {digits : Text} {ch : Byte} (h : isHexText digits) (hm : ch ∈ hyphenated digits) :
    ch ∈ digits ∨ ch = 45 := by
  by_cases hc : ch = 45
  · exact .inr hc
  · have hfilter : ch ∈ (hyphenated digits).filter (· ≠ 45) := List.mem_filter.mpr ⟨hm, by simpa using hc⟩
    rw [filter_hyphenated h] at hfilter
    exact .inl hfilter

theorem space_of_hyphenated {digits : Text} {ch : Byte} (h : isHexText digits) (hm : ch ∈ hyphenated digits) :
    isSpace ch = false := by
  rcases mem_hyphenated h hm with hm | rfl
  · exact (hexChar_of_mem h hm).space
  · rfl

/-! ## Spellings -/

/-- Without the white space at both ends. -/
def trimmed (input : Text) : Text := ((input.dropWhile isSpace).reverse.dropWhile isSpace).reverse

/-- Four digits, with a prefix or without one. -/
structure IsShort (text digits : Text) : Prop where
  spelling : text = digits ∨ text = ascii "0x" ++ digits ∨ text = ascii "0X" ++ digits
  length : digits.length = 4
  hex : isHexText digits

/-- The digits are what is left of the text without its hyphens. -/
structure IsLong (text digits : Text) : Prop where
  without : text.filter (· ≠ 45) = digits
  length : digits.length = 32
  hex : isHexText digits

/-- A text whose first and last characters are not white space is not trimmed. -/
theorem trim_eq (text : Text) (hfirst : ∀ ch ∈ text.head?, isSpace ch = false)
    (hlast : ∀ ch ∈ text.getLast?, isSpace ch = false) :
    text.dropWhile isSpace = text ∧ (text.reverse.dropWhile isSpace).reverse = text := by
  have hdrop : ∀ l : Text, (∀ ch ∈ l.head?, isSpace ch = false) → l.dropWhile isSpace = l := by
    intro l hl
    cases l with
    | nil => rfl
    | cons ch l => simp [hl ch (by simp)]
  refine ⟨hdrop text hfirst, ?_⟩
  rw [hdrop text.reverse (by simpa using hlast), List.reverse_reverse]

theorem ascii_0x : ascii "0x" = [48, 120] := by decide

theorem ascii_0X : ascii "0X" = [48, 88] := by decide

/-- The prefix that `normalize_uuid16` drops. -/
def dropPrefix : Text → Text
  | 48 :: x :: rest => if x == 120 || x == 88 then rest else 48 :: x :: rest
  | text => text

theorem normalizeUuid16_eq (text : Text) (outputLen : Nat) :
    normalizeUuid16 text outputLen =
      if (dropPrefix text).length ≠ 4 || !isHexText (dropPrefix text) || outputLen < 7 then none
      else some (snprintk outputLen (ascii "0x" ++ (dropPrefix text).map toUpper)) := by
  have hmatch : dropPrefix text =
      match text with
      | 48 :: x :: rest => if x == 120 || x == 88 then rest else text
      | _ => text := by
    unfold dropPrefix
    split
    · rfl
    · rfl
  rw [hmatch]
  rfl

theorem IsShort.dropPrefix (h : IsShort text digits) : dropPrefix text = digits := by
  rcases h.spelling with rfl | rfl | rfl
  · unfold BleAtHost.dropPrefix
    split
    · rename_i x rest
      have hx : isXDigit x := List.all_eq_true.mp h.hex x (by simp)
      have hne : ¬((x == 120 || x == 88) = true) := by
        simp only [Bool.or_eq_true, beq_iff_eq]
        rintro (rfl | rfl)
        · exact absurd hx (by decide)
        · exact absurd hx (by decide)
      rw [if_neg hne]
    · rfl
  · rw [ascii_0x]
    rfl
  · rw [ascii_0X]
    rfl

theorem isShort_dropPrefix (hlen : (dropPrefix text).length = 4) (hhex : isHexText (dropPrefix text)) :
    IsShort text (dropPrefix text) := by
  refine ⟨?_, hlen, hhex⟩
  unfold dropPrefix
  split
  · rename_i x rest
    split
    · rename_i hx
      simp only [Bool.or_eq_true, beq_iff_eq] at hx
      rcases hx with rfl | rfl
      · exact .inr (.inl (by rw [ascii_0x]; rfl))
      · exact .inr (.inr (by rw [ascii_0X]; rfl))
    · exact .inl rfl
  · exact .inl rfl

theorem normalizeUuid16_iff (hl : 37 ≤ outputLen) :
    normalizeUuid16 text outputLen = some output ↔
      ∃ digits, IsShort text digits ∧ output = ascii "0x" ++ digits.map toUpper := by
  rw [normalizeUuid16_eq]
  constructor
  · intro h
    split at h
    · cases h
    · rename_i hc
      simp only [Bool.or_eq_true, decide_eq_true_eq, not_or, Decidable.not_not, Bool.not_eq_true,
        Bool.not_eq_false'] at hc
      refine ⟨_, isShort_dropPrefix hc.1.1 hc.1.2, ?_⟩
      rw [← Option.some.inj h, snprintk, List.take_of_length_le]
      rw [ascii_0x]
      simp [hc.1.1]
      omega
  · rintro ⟨digits, hs, rfl⟩
    rw [hs.dropPrefix]
    have hc : ¬((decide (digits.length ≠ 4) || !isHexText digits || decide (outputLen < 7)) = true) := by
      simp [hs.length, hs.hex]
      omega
    rw [if_neg hc, snprintk, List.take_of_length_le]
    rw [ascii_0x]
    simp [hs.length]
    omega

theorem normalizeUuid128_iff (hl : 37 ≤ outputLen) :
    normalizeUuid128FromHex32 digits outputLen = some output ↔
      digits.length = 32 ∧ isHexText digits ∧ output = hyphenated (digits.map toLower) := by
  have hcut : digits.length = 32 → snprintk outputLen (hyphenated (digits.map toLower)) = hyphenated (digits.map toLower) := by
    intro hlen
    rw [snprintk, List.take_of_length_le]
    rw [length_hyphenated (by rw [List.length_map, hlen])]
    omega
  unfold normalizeUuid128FromHex32
  constructor
  · intro h
    split at h
    · cases h
    · rename_i hc
      simp only [Bool.or_eq_true, decide_eq_true_eq, not_or, Decidable.not_not, Bool.not_eq_true,
        Bool.not_eq_false'] at hc
      exact ⟨hc.1.1, hc.1.2, (Option.some.inj h).symm.trans (hcut hc.1.1)⟩
  · rintro ⟨hlen, hhex, rfl⟩
    have hc : ¬((decide (digits.length ≠ 32) || !isHexText digits || decide (outputLen < 37)) = true) := by
      simp [hlen, hhex]
      omega
    rw [if_neg hc]
    exact congrArg some (hcut hlen)

/-- The loop collects the characters that are no hyphens. -/
theorem compactHex_iff {compact result : Text} (h : compact.length ≤ 32) :
    compactHex compact text = some result ↔
      result = compact ++ text.filter (· ≠ 45) ∧ isHexText (text.filter (· ≠ 45)) ∧ result.length ≤ 32 := by
  induction text generalizing compact with
  | nil =>
      rw [compactHex, List.filter_nil, List.append_nil]
      constructor
      · rintro ⟨⟩
        exact ⟨rfl, rfl, h⟩
      · rintro ⟨rfl, _, _⟩
        rfl
  | cons ch text ih =>
      rw [compactHex]
      by_cases hh : ch = 45
      · subst hh
        rw [if_pos (by rfl), ih h, List.filter_cons_of_neg (by simp)]
      · rw [if_neg (by simpa using hh), List.filter_cons_of_pos (by simpa using hh)]
        by_cases hx : isXDigit ch
        · by_cases hroom : compact.length < 32
          · have hc : ¬((!isXDigit ch || decide (32 ≤ compact.length)) = true) := by
              simp [hx]
              omega
            rw [if_neg hc, ih (by simp; omega)]
            simp [isHexText, hx]
          · have hc : (!isXDigit ch || decide (32 ≤ compact.length)) = true := by
              simp
              omega
            rw [if_pos hc]
            refine ⟨fun he => (by cases he), ?_⟩
            rintro ⟨rfl, _, hlen⟩
            simp at hlen
            omega
        · rw [if_pos (by simp [hx])]
          refine ⟨fun he => (by cases he), ?_⟩
          rintro ⟨_, hhex, _⟩
          simp [isHexText, hx] at hhex

theorem normalize_eq (h : outputLen ≠ 0) :
    bleHostNormalizeUuid input outputLen =
      if (trimmed input).length = 0 then none
      else
        match (if (trimmed input).length ≤ 6 then normalizeUuid16 (input.dropWhile isSpace) outputLen else none) with
        | some output => some output
        | none =>
            match compactHex [] (trimmed input) with
            | none => none
            | some compact =>
                if compact.length ≠ 32 then none else normalizeUuid128FromHex32 compact outputLen := by
  rw [bleHostNormalizeUuid, if_neg h]
  rfl

theorem IsShort.ends (h : IsShort text digits) :
    (∀ ch ∈ text.head?, isSpace ch = false) ∧ (∀ ch ∈ text.getLast?, isSpace ch = false) ∧ 4 ≤ text.length ∧ text.length ≤ 6 := by
  obtain ⟨a, b, c, d, rfl⟩ : ∃ a b c d, digits = [a, b, c, d] := by
    have hlen := h.length
    rcases digits with _ | ⟨a, _ | ⟨b, _ | ⟨c, _ | ⟨d, _ | ⟨e, digits⟩⟩⟩⟩⟩
    all_goals simp at hlen
    exact ⟨a, b, c, d, rfl⟩
  have ha : isSpace a = false := (hexChar_of_mem h.hex (by simp)).space
  have hd : isSpace d = false := (hexChar_of_mem h.hex (by simp)).space
  have hzero : isSpace 48 = false := by decide
  rcases h.spelling with rfl | rfl | rfl
  · simp [ha, hd]
  · simp [ascii_0x, hzero, hd]
  · simp [ascii_0X, hzero, hd]

theorem IsLong.length_le (h : IsLong text digits) : 32 ≤ text.length := by
  have hle := List.length_filter_le (· ≠ 45) text
  rw [h.without, h.length] at hle
  exact hle

theorem getLast?_dropWhile {p : Byte → Bool} (h : input.dropWhile p ≠ []) : (input.dropWhile p).getLast? = input.getLast? := by
  obtain ⟨before, he⟩ := List.dropWhile_suffix (l := input) p
  generalize input.dropWhile p = rest at h he
  rw [← he, List.getLast?_append, List.getLast?_eq_some_getLast h, Option.some_or]

/-- Without white space at the end only the leading white space goes. -/
theorem trimmed_eq (h : ∀ ch ∈ input.getLast?, isSpace ch = false) : trimmed input = input.dropWhile isSpace := by
  rw [trimmed]
  cases hr : (input.dropWhile isSpace).reverse with
  | nil =>
      rw [List.reverse_eq_nil_iff] at hr
      rw [hr]
      rfl
  | cons ch rest =>
      have hne : input.dropWhile isSpace ≠ [] := by
        intro hnil
        rw [hnil] at hr
        cases hr
      have hlast : (input.dropWhile isSpace).getLast? = some ch := by rw [List.getLast?_eq_head?_reverse, hr]; rfl
      rw [List.dropWhile_cons_of_neg (by rw [h ch (by rw [← getLast?_dropWhile hne, hlast]; rfl)]; simp), ← hr,
        List.reverse_reverse]

theorem trimmed_of_short (h : IsShort (input.dropWhile isSpace) digits) : trimmed input = input.dropWhile isSpace :=
  (trim_eq _ h.ends.1 h.ends.2.1).2

/-- What the loop collects is accepted as a long form. -/
theorem compact_iff (hl : 37 ≤ outputLen) :
    (match compactHex [] text with
      | none => none
      | some compact => if compact.length ≠ 32 then none else normalizeUuid128FromHex32 compact outputLen) = some output ↔
      ∃ digits, IsLong text digits ∧ output = hyphenated (digits.map toLower) := by
  cases hcompact : compactHex [] text with
  | none =>
      refine ⟨fun h => (by cases h), ?_⟩
      rintro ⟨digits, hd, _⟩
      have hsome : compactHex [] text = some digits :=
        (compactHex_iff (by decide)).mpr
          ⟨by rw [List.nil_append, hd.without], by rw [hd.without]; exact hd.hex, hd.length.le⟩
      rw [hcompact] at hsome
      cases hsome
  | some compact =>
      obtain ⟨rfl, hhex, _⟩ := (compactHex_iff (by simp)).mp hcompact
      rw [List.nil_append]
      dsimp only
      constructor
      · intro h
        split at h
        · cases h
        · obtain ⟨hlen, _, rfl⟩ := (normalizeUuid128_iff hl).mp h
          exact ⟨_, ⟨rfl, hlen, hhex⟩, rfl⟩
      · rintro ⟨digits, hd, rfl⟩
        rw [hd.without, if_neg (not_not.mpr hd.length)]
        exact (normalizeUuid128_iff hl).mpr ⟨hd.length, hd.hex, rfl⟩

/-- The length that is tested before the short form is that of the text without blanks. -/
theorem short_attempt (hl : 37 ≤ outputLen) :
    (if (trimmed input).length ≤ 6 then normalizeUuid16 (input.dropWhile isSpace) outputLen else none) =
      normalizeUuid16 (input.dropWhile isSpace) outputLen := by
  split
  · rfl
  · rename_i hmany
    refine (Option.eq_none_iff_forall_ne_some.mpr fun norm hnorm => ?_).symm
    obtain ⟨digits, hs, _⟩ := (normalizeUuid16_iff hl).mp hnorm
    rw [trimmed_of_short hs] at hmany
    exact hmany hs.ends.2.2.2

theorem IsShort.not_long {digits' : Text} (hs : IsShort text digits) : ¬IsLong text digits' := by
  intro hd
  have hmany := hd.length_le
  have hends := hs.ends.2.2.2
  omega

/-- A text is accepted as a short form without its leading white space only, or as a long form. -/
theorem normalize_iff (hl : 37 ≤ outputLen) :
    bleHostNormalizeUuid input outputLen = some output ↔
      (∃ digits, IsShort (input.dropWhile isSpace) digits ∧ output = ascii "0x" ++ digits.map toUpper) ∨
        ∃ digits, IsLong (trimmed input) digits ∧ output = hyphenated (digits.map toLower) := by
  rw [normalize_eq (by omega), short_attempt hl]
  by_cases hzero : (trimmed input).length = 0
  · rw [if_pos hzero]
    refine ⟨fun h => (by cases h), ?_⟩
    rintro (⟨digits, hs, _⟩ | ⟨digits, hd, _⟩)
    · have hends := hs.ends.2.2.1
      rw [← trimmed_of_short hs] at hends
      omega
    · have hmany := hd.length_le
      omega
  · rw [if_neg hzero]
    cases h16 : normalizeUuid16 (input.dropWhile isSpace) outputLen with
    | some norm =>
        obtain ⟨digits, hs, rfl⟩ := (normalizeUuid16_iff hl).mp h16
        dsimp only
        constructor
        · rintro ⟨⟩
          exact .inl ⟨digits, hs, rfl⟩
        · rintro (⟨digits', hs', rfl⟩ | ⟨digits', hd, _⟩)
          · rw [← hs.dropPrefix, ← hs'.dropPrefix]
          · rw [trimmed_of_short hs] at hd
            exact absurd hd hs.not_long
    | none =>
        refine (compact_iff hl).trans ⟨.inr, ?_⟩
        rintro (⟨digits, hs, _⟩ | hlong)
        · have hsome := (normalizeUuid16_iff hl).mpr ⟨digits, hs, rfl⟩
          rw [h16] at hsome
          cases hsome
        · exact hlong

/-! ## The output buffer -/

theorem normalizeUuid16Into_eq (text output : Text) (outputLen : Nat) : normalizeUuid16Into text output outputLen =
    ((normalizeUuid16 text outputLen).isSome, (normalizeUuid16 text outputLen).getD output) := by
  simp only [normalizeUuid16Into, normalizeUuid16]
  repeat' split
  all_goals rfl

theorem normalizeUuid128FromHex32Into_eq (hex32 output : Text) (outputLen : Nat) :
    normalizeUuid128FromHex32Into hex32 output outputLen =
      ((normalizeUuid128FromHex32 hex32 outputLen).isSome, (normalizeUuid128FromHex32 hex32 outputLen).getD output) := by
  simp only [normalizeUuid128FromHex32Into, normalizeUuid128FromHex32]
  split
  · rfl
  · rfl

/-- The buffer holds what is accepted, or else what it held before. -/
theorem normalizeInto_eq (input output : Text) (outputLen : Nat) : bleHostNormalizeUuidInto input output outputLen =
    ((bleHostNormalizeUuid input outputLen).isSome, (bleHostNormalizeUuid input outputLen).getD output) := by
  have hshort : (if ((input.dropWhile isSpace).reverse.dropWhile isSpace).reverse.length ≤ 6 then
        normalizeUuid16Into (input.dropWhile isSpace) output outputLen else (false, output)) =
      ((if ((input.dropWhile isSpace).reverse.dropWhile isSpace).reverse.length ≤ 6 then
          normalizeUuid16 (input.dropWhile isSpace) outputLen else none).isSome,
        (if ((input.dropWhile isSpace).reverse.dropWhile isSpace).reverse.length ≤ 6 then
          normalizeUuid16 (input.dropWhile isSpace) outputLen else none).getD output) := by
    split
    · exact normalizeUuid16Into_eq _ _ _
    · rfl
  unfold bleHostNormalizeUuidInto bleHostNormalizeUuid
  split
  · rfl
  · dsimp only
    split
    · rfl
    · rw [hshort]
      cases (if ((input.dropWhile isSpace).reverse.dropWhile isSpace).reverse.length ≤ 6 then
          normalizeUuid16 (input.dropWhile isSpace) outputLen else none) with
      | some short => rfl
      | none =>
          cases compactHex [] ((input.dropWhile isSpace).reverse.dropWhile isSpace).reverse with
          | none => rfl
          | some compact =>
              by_cases hcount : compact.length ≠ 32
              · simp [hcount]
              · simp only [Option.isSome_none, Option.getD_none, if_neg hcount]
                exact normalizeUuid128FromHex32Into_eq compact output outputLen

/-! ## The forms are kept -/

/-- The two forms that the normaliser gives. -/
theorem normalize_form {input output : Text} (h : bleHostNormalizeUuid input BLE_HOST_UUID_STR_LEN = some output) :
    IsUuid16 output ∨ IsUuid128 output := by
  rcases (normalize_iff (by decide)).mp h with ⟨digits, hs, rfl⟩ | ⟨digits, hd, rfl⟩
  · refine .inl ⟨digits.map toUpper, ?_, isHexText_map isXDigit_toUpper hs.hex, ?_, rfl⟩
    · rw [List.length_map, hs.length]
    · simp [toUpper_toUpper]
  · refine .inr ⟨digits.map toLower, ?_, isHexText_map isXDigit_toLower hd.hex, ?_, rfl⟩
    · rw [List.length_map, hd.length]
    · simp [toLower_toLower]

theorem normalize_uuid16 {text : Text} (h : IsUuid16 text) :
    bleHostNormalizeUuid text BLE_HOST_UUID_STR_LEN = some text := by
  obtain ⟨digits, hlen, hhex, hup, rfl⟩ := h
  have hs : IsShort (ascii "0x" ++ digits) digits := ⟨.inr (.inl rfl), hlen, hhex⟩
  have hdrop := (trim_eq _ hs.ends.1 hs.ends.2.1).1
  exact (normalize_iff (by decide)).mpr (.inl ⟨digits, by rw [hdrop]; exact hs, by rw [hup]⟩)

theorem normalize_uuid128 {text : Text} (h : IsUuid128 text) :
    bleHostNormalizeUuid text BLE_HOST_UUID_STR_LEN = some text := by
  obtain ⟨digits, hlen, hhex, hlow, rfl⟩ := h
  obtain ⟨hdrop, htrim⟩ := trim_eq (hyphenated digits)
    (fun _ hm => space_of_hyphenated hhex (List.mem_of_head? hm))
    (fun _ hm => space_of_hyphenated hhex (List.mem_of_getLast? hm))
  have hd : IsLong (trimmed (hyphenated digits)) digits := by
    rw [trimmed, hdrop, htrim]
    exact ⟨filter_hyphenated hhex, hlen, hhex⟩
  exact (normalize_iff (by decide)).mpr (.inr ⟨digits, hd, by rw [hlow]⟩)

/-- The normaliser is idempotent. -/
theorem normalize_normalized {input output : Text}
    (h : bleHostNormalizeUuid input BLE_HOST_UUID_STR_LEN = some output) :
    bleHostNormalizeUuid output BLE_HOST_UUID_STR_LEN = some output := by
  rcases normalize_form h with h16 | h128
  · exact normalize_uuid16 h16
  · exact normalize_uuid128 h128

/-- What the normaliser gives fits into its buffer and holds no NUL. -/
structure Fits (text : Text) : Prop where
  pos : text.length ≠ 0
  short : text.length < BLE_HOST_UUID_STR_LEN
  text : cString text = text

theorem cString_eq {text : Text} (h : ∀ ch ∈ text, ch ≠ 0) : cString text = text :=
  List.takeWhile_eq_self_iff.mpr fun ch hm => by simpa using h ch hm

theorem fits_of_normalized {input output : Text}
    (h : bleHostNormalizeUuid input BLE_HOST_UUID_STR_LEN = some output) : Fits output := by
  rcases normalize_form h with ⟨digits, hlen, hhex, _, rfl⟩ | ⟨digits, hlen, hhex, _, rfl⟩
  · refine ⟨by simp [hlen], ?_, cString_eq fun ch hm => ?_⟩
    · simp [hlen, ascii, BLE_HOST_UUID_STR_LEN]
    · rw [ascii_0x, List.mem_append] at hm
      rcases hm with hm | hm
      · intro hz
        subst hz
        revert hm
        decide
      · exact (hexChar_of_mem hhex hm).zero
  · refine ⟨by rw [length_hyphenated hlen]; decide, by rw [length_hyphenated hlen]; decide, cString_eq fun ch hm => ?_⟩
    rcases mem_hyphenated hhex hm with hm | rfl
    · exact (hexChar_of_mem hhex hm).zero
    · decide

theorem bleHostUuidEquals_iff {lhs rhs : Text} :
    bleHostUuidEquals lhs rhs ↔ ∃ norm, bleHostNormalizeUuid lhs BLE_HOST_UUID_STR_LEN = some norm ∧
      bleHostNormalizeUuid rhs BLE_HOST_UUID_STR_LEN = some norm := by
  unfold bleHostUuidEquals
  generalize bleHostNormalizeUuid lhs BLE_HOST_UUID_STR_LEN = left
  generalize bleHostNormalizeUuid rhs BLE_HOST_UUID_STR_LEN = right
  cases left with
  | none =>
      constructor
      · intro h
        cases h
      · rintro ⟨_, h, _⟩
        cases h
  | some lhsNorm =>
      cases right with
      | none =>
          constructor
          · intro h
            cases h
          · rintro ⟨_, _, h⟩
            cases h
      | some rhsNorm =>
          constructor
          · intro h
            have he : lhsNorm = rhsNorm := eq_of_beq h
            exact ⟨lhsNorm, rfl, by rw [he]⟩
          · rintro ⟨norm, hl, hr⟩
            cases hl
            cases hr
            exact beq_self_eq_true lhsNorm

theorem bleHostUuidEquals_trans {a b c : Text} (hab : bleHostUuidEquals a b) (hbc : bleHostUuidEquals b c) :
    bleHostUuidEquals a c := by
  obtain ⟨norm, ha, hb⟩ := bleHostUuidEquals_iff.mp hab
  obtain ⟨norm', hb', hc⟩ := bleHostUuidEquals_iff.mp hbc
  rw [hb] at hb'
  cases hb'
  exact bleHostUuidEquals_iff.mpr ⟨norm, ha, hc⟩

end BleAtHost
