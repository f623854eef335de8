import BleAtHost.Lemmas.Uuid

/-!
# Spellings of a UUID

The grammar of `ble_host_normalize_uuid`, and what `ble_host_uuid_equals` makes of its normal forms.
-/

namespace BleAtHost

variable {text input output digits : Text} {outputLen : Nat}

/-- A trimmed text and its normal form. -/
inductive Spelling (text : Text) : Text → Prop
  | short {digits : Text} (h : IsShort text digits) : Spelling text (ascii "0x" ++ digits.map toUpper)
  | long {digits : Text} (h : IsLong text digits) : Spelling text (hyphenated (digits.map toLower))

/-- Accepted are the spellings. A buffer holds the normal form afterwards, or else what it held before. -/
structure NormalizesExactly (input : Text) (outputLen : Nat) : Prop where
  accepted : ∀ buffer, (bleHostNormalizeUuidInto input buffer outputLen).1 ↔ ∃ output, Spelling (trimmed input) output
  written : ∀ output buffer, Spelling (trimmed input) output → (bleHostNormalizeUuidInto input buffer outputLen).2 = output
  kept : ∀ buffer, (bleHostNormalizeUuidInto input buffer outputLen).1 = false →
    (bleHostNormalizeUuidInto input buffer outputLen).2 = buffer

/-- A short form with white space behind it. -/
structure ShortBeforeBlank (input : Text) : Prop where
  short : ∃ digits, IsShort (trimmed input) digits
  blank : ∃ ch ∈ input.getLast?, isSpace ch

/-! ## The grammar -/

/-- A text has one normal form. -/
theorem Spelling.unique {output' : Text} (h : Spelling text output) (h' : Spelling text output') : output = output' := by
  cases h with
  | short hs =>
      cases h' with
      | short hs' => rw [← hs.dropPrefix, ← hs'.dropPrefix]
      | long hd => exact absurd hd hs.not_long
  | long hd =>
      cases h' with
      | short hs => exact absurd hd hs.not_long
      | long hd' => rw [← hd.without, ← hd'.without]

theorem accepted_of_spelling (hl : 37 ≤ outputLen) (h : Spelling (trimmed input) output) (hb : ¬ShortBeforeBlank input) :
    bleHostNormalizeUuid input outputLen = some output := by
  rw [normalize_iff hl]
  cases h with
  | short hs =>
      have hlast : ∀ ch ∈ input.getLast?, isSpace ch = false := by
        intro ch hm
        by_contra hsp
        exact hb ⟨⟨_, hs⟩, ch, hm, by simpa using hsp⟩
      rw [trimmed_eq hlast] at hs
      exact .inl ⟨_, hs, rfl⟩
  | long hd => exact .inr ⟨_, hd, rfl⟩

/-- What is accepted is spelt as the grammar says. -/
theorem spelling_of_accepted (hl : 37 ≤ outputLen) (h : bleHostNormalizeUuid input outputLen = some output) :
    Spelling (trimmed input) output := by
  rcases (normalize_iff hl).mp h with ⟨digits, hs, rfl⟩ | ⟨digits, hd, rfl⟩
  · exact .short (by rw [trimmed_of_short hs]; exact hs)
  · exact .long hd

/-- Blanks behind a short form are not trimmed. -/
theorem ShortBeforeBlank.rejected (h : ShortBeforeBlank input) (hl : 37 ≤ outputLen) :
    bleHostNormalizeUuid input outputLen = none := by
  obtain ⟨⟨digits, hs⟩, ch, hm, hsp⟩ := h
  refine Option.eq_none_iff_forall_ne_some.mpr fun output hsome => ?_
  rcases (normalize_iff hl).mp hsome with ⟨digits', hs', _⟩ | ⟨digits', hd, _⟩
  · have hne : input.dropWhile isSpace ≠ [] := by
      have hends := hs'.ends.2.2.1
      intro hnil
      rw [hnil] at hends
      simp at hends
    rw [← getLast?_dropWhile hne] at hm
    rw [hs'.ends.2.1 ch hm] at hsp
    cases hsp
  · exact hs.not_long hd

theorem normalizes_exactly_iff (input : Text) (hl : 37 ≤ outputLen) :
    NormalizesExactly input outputLen ↔ ¬ShortBeforeBlank input := by
  constructor
  · intro hexact hb
    obtain ⟨digits, hs⟩ := hb.short
    have hsome := (hexact.accepted []).mpr ⟨_, .short hs⟩
    rw [normalizeInto_eq, hb.rejected hl] at hsome
    cases hsome
  · intro hb
    refine ⟨fun buffer => ⟨fun h => ?_, ?_⟩, fun output buffer h => ?_, fun buffer h => ?_⟩
    · rw [normalizeInto_eq] at h
      obtain ⟨output, hnorm⟩ := Option.isSome_iff_exists.mp h
      exact ⟨output, spelling_of_accepted hl hnorm⟩
    · rintro ⟨output, h⟩
      rw [normalizeInto_eq, accepted_of_spelling hl h hb]
      rfl
    · rw [normalizeInto_eq, accepted_of_spelling hl h hb]
      rfl
    · rw [normalizeInto_eq] at h ⊢
      rw [Option.isSome_eq_false_iff, Option.isNone_iff_eq_none] at h
      rw [h]
      rfl

theorem normalizes_exactly_indented : NormalizesExactly (ascii " 0xfff0") BLE_HOST_UUID_STR_LEN :=
  (normalizes_exactly_iff (ascii " 0xfff0") (by decide)).mpr fun h => by
    obtain ⟨ch, hm, hsp⟩ := h.blank
    have hlast : (ascii " 0xfff0").getLast? = some 48 := by decide
    rw [hlast, Option.mem_some_iff] at hm
    subst hm
    cases hsp

/-- The same UUID with a blank behind it. -/
theorem blank_behind_short_rejected :
    bleHostNormalizeUuidInto (ascii "0xfff0 ") [] BLE_HOST_UUID_STR_LEN = (false, []) ∧
      ¬NormalizesExactly (ascii "0xfff0 ") BLE_HOST_UUID_STR_LEN := by
  have hrejected : bleHostNormalizeUuidInto (ascii "0xfff0 ") [] BLE_HOST_UUID_STR_LEN = (false, []) := by decide
  have hshort : IsShort (trimmed (ascii "0xfff0 ")) (ascii "fff0") := ⟨.inr (.inl (by decide)), by decide, by decide⟩
  refine ⟨hrejected, fun h => ?_⟩
  have hsome := (h.accepted []).mpr ⟨_, .short hshort⟩
  rw [hrejected] at hsome
  cases hsome

/-! ## Equality -/

/-- The digits that a text carries, as values. -/
def uuidDigits (text : Text) : List Nat := ((dropPrefix (trimmed text)).filter (· ≠ 45)).map hexValue

def Accepted (text : Text) : Prop := (bleHostNormalizeUuid text BLE_HOST_UUID_STR_LEN).isSome

/-- Normal forms are stable, and equality of accepted texts is equality of their digits. -/
structure UuidEquality : Prop where
  stable : ∀ x y, bleHostNormalizeUuid x BLE_HOST_UUID_STR_LEN = some y →
    bleHostNormalizeUuid y BLE_HOST_UUID_STR_LEN = some y
  symm : ∀ x y, bleHostUuidEquals x y → bleHostUuidEquals y x
  trans : ∀ x y z, bleHostUuidEquals x y → bleHostUuidEquals y z → bleHostUuidEquals x z
  refl : ∀ x, bleHostUuidEquals x x ↔ Accepted x
  digits : ∀ x y, Accepted x → Accepted y → (bleHostUuidEquals x y ↔ uuidDigits x = uuidDigits y)

/-- The normal form of a text with these digits. -/
def normalForm (values : List Nat) : Text :=
  if values.length = 4 then ascii "0x" ++ values.map upperDigit else hyphenated (values.map lowerDigit)

theorem map_upper (h : isHexText digits) : digits.map toUpper = (digits.map hexValue).map upperDigit := by
  rw [List.map_map]
  exact List.map_congr_left fun ch hm => (hexCase (List.all_eq_true.mp h ch hm)).upperDigit

theorem map_lower (h : isHexText digits) : digits.map toLower = (digits.map hexValue).map lowerDigit := by
  rw [List.map_map]
  exact List.map_congr_left fun ch hm => (hexCase (List.all_eq_true.mp h ch hm)).lowerDigit

theorem IsShort.uuidDigits (h : IsShort (trimmed text) digits) : uuidDigits text = digits.map hexValue := by
  rw [BleAtHost.uuidDigits, h.dropPrefix, filter_of_hex h.hex]

/-- No prefix stands before 32 digits. -/
theorem IsLong.uuidDigits (h : IsLong (trimmed text) digits) : uuidDigits text = digits.map hexValue := by
  have hplain : dropPrefix (trimmed text) = trimmed text := by
    generalize trimmed text = t at h
    unfold dropPrefix
    split
    · rename_i x rest
      have hx : ¬((x == 120 || x == 88) = true) := by
        have hmem : x ≠ 45 → x ∈ digits := fun hne => by
          rw [← h.without]
          exact List.mem_filter.mpr ⟨by simp, by simpa using hne⟩
        simp only [Bool.or_eq_true, beq_iff_eq]
        rintro (rfl | rfl)
        · exact absurd (List.all_eq_true.mp h.hex 120 (hmem (by decide))) (by decide)
        · exact absurd (List.all_eq_true.mp h.hex 88 (hmem (by decide))) (by decide)
      rw [if_neg hx]
    · rfl
  rw [BleAtHost.uuidDigits, hplain, h.without]

theorem hyphenated_injective {digits' : Text} (hhex : isHexText digits) (hhex' : isHexText digits')
    (h : hyphenated digits = hyphenated digits') : digits = digits' := by
  rw [← filter_hyphenated hhex, h, filter_hyphenated hhex']

/-- The normal form of an accepted text is that of its digits. -/
theorem normalForm_of_accepted (h : bleHostNormalizeUuid input BLE_HOST_UUID_STR_LEN = some output) :
    output = normalForm (uuidDigits input) := by
  cases spelling_of_accepted (by decide) h with
  | short hs =>
      rw [hs.uuidDigits, normalForm, if_pos (by rw [List.length_map, hs.length]), map_upper hs.hex]
  | long hd =>
      rw [hd.uuidDigits, normalForm, if_neg (by rw [List.length_map, hd.length]; decide), map_lower hd.hex]

theorem values_upper (h : isHexText digits) : (digits.map toUpper).map hexValue = digits.map hexValue := by
  rw [List.map_map]
  exact List.map_congr_left fun ch hm => (hexCase (List.all_eq_true.mp h ch hm)).valueUpper

theorem values_lower (h : isHexText digits) : (digits.map toLower).map hexValue = digits.map hexValue := by
  rw [List.map_map]
  exact List.map_congr_left fun ch hm => (hexCase (List.all_eq_true.mp h ch hm)).valueLower

theorem short_ne_long {digits' : Text} (hlen : digits.length = 4) (hlen' : digits'.length = 32) :
    ascii "0x" ++ digits ≠ hyphenated digits' := by
  intro he
  have hlength := congrArg List.length he
  rw [length_hyphenated hlen', ascii_0x] at hlength
  simp [hlen] at hlength

theorem digits_of_hyphenated (hlen : digits.length = 32) (hhex : isHexText digits)
    (h : Spelling (trimmed text) (hyphenated digits)) : uuidDigits text = digits.map hexValue := by
  generalize ho : hyphenated digits = output at h
  cases h with
  | short hs => exact absurd ho.symm (short_ne_long (by rw [List.length_map, hs.length]) hlen)
  | long hd =>
      have hlower := hyphenated_injective hhex (isHexText_map isXDigit_toLower hd.hex) ho
      rw [hd.uuidDigits, hlower, values_lower hd.hex]

/-- Texts with one normal form carry the same digits. -/
theorem digits_of_spelling {x y : Text} (hx : Spelling (trimmed x) output) (hy : Spelling (trimmed y) output) :
    uuidDigits x = uuidDigits y := by
  cases hy with
  | @long digits hd =>
      have hlen : (digits.map toLower).length = 32 := by rw [List.length_map, hd.length]
      rw [hd.uuidDigits, digits_of_hyphenated hlen (isHexText_map isXDigit_toLower hd.hex) hx, values_lower hd.hex]
  | @short digits hs =>
      generalize ho : ascii "0x" ++ digits.map toUpper = output at hx
      cases hx with
      | short hs' =>
          have hupper := List.append_cancel_left ho
          rw [hs.uuidDigits, hs'.uuidDigits, ← values_upper hs.hex, hupper, values_upper hs'.hex]
      | long hd =>
          exact absurd ho (short_ne_long (by rw [List.length_map, hs.length]) (by rw [List.length_map, hd.length]))

theorem equals_iff_digits {x y : Text} (hx : Accepted x) (hy : Accepted y) :
    bleHostUuidEquals x y ↔ uuidDigits x = uuidDigits y := by
  obtain ⟨normX, hx⟩ := Option.isSome_iff_exists.mp hx
  obtain ⟨normY, hy⟩ := Option.isSome_iff_exists.mp hy
  constructor
  · intro h
    obtain ⟨norm, hx', hy'⟩ := bleHostUuidEquals_iff.mp h
    exact digits_of_spelling (spelling_of_accepted (by decide) hx') (spelling_of_accepted (by decide) hy')
  · intro h
    refine bleHostUuidEquals_iff.mpr ⟨normX, hx, ?_⟩
    rw [normalForm_of_accepted hx, h, ← normalForm_of_accepted hy, hy]

theorem accepted_of_equals {x y : Text} (h : bleHostUuidEquals x y) : Accepted x ∧ Accepted y := by
  obtain ⟨norm, hx, hy⟩ := bleHostUuidEquals_iff.mp h
  exact ⟨Option.isSome_iff_exists.mpr ⟨norm, hx⟩, Option.isSome_iff_exists.mpr ⟨norm, hy⟩⟩

theorem uuid_equality : UuidEquality where
  stable _ _ h := normalize_normalized h
  symm x y h := by
    obtain ⟨norm, hx, hy⟩ := bleHostUuidEquals_iff.mp h
    exact bleHostUuidEquals_iff.mpr ⟨norm, hy, hx⟩
  trans _ _ _ h h' := bleHostUuidEquals_trans h h'
  refl x := ⟨fun h => (accepted_of_equals h).1, fun h => (equals_iff_digits h h).mpr rfl⟩
  digits _ _ hx hy := equals_iff_digits hx hy

/-! ## UUIDs of the stack -/

/-- The value fits into its form. -/
def BtUuid.Valid : BtUuid → Prop
  | .uuid16 value => value < 16 ^ 4
  | .uuid32 value => value < 16 ^ 8
  | .uuid128 value => value < 16 ^ 32

/-- `00000000-0000-1000-8000-00805f9b34fb`. -/
def BASE_UUID : Nat := 0x0000000000001000800000805f9b34fb

/-- A short form stands for the 128 bits that it gives with the base UUID. -/
def BtUuid.expand : BtUuid → Nat
  | .uuid16 value | .uuid32 value => value * 2 ^ 96 + BASE_UUID
  | .uuid128 value => value

/-- What discovery compares with the UUIDs of the profile. -/
def formatted (uuid : BtUuid) : Text := bleHostFormatUuidFromBt uuid BLE_HOST_UUID_STR_LEN

def BtUuid.is32 : BtUuid → Bool
  | .uuid32 _ => true
  | _ => false

theorem length_hexDigits (n value : Nat) : (hexDigits n value).length = n := by
  induction n generalizing value with
  | zero => rfl
  | succ n ih => rw [hexDigits, List.length_append, ih, List.length_singleton]

/-- Checked for each of the 16 digits. -/
theorem digit_value (value : Nat) :
    isXDigit (lowerDigit (value % 16)) ∧ toLower (lowerDigit (value % 16)) = lowerDigit (value % 16) ∧
      hexValue (lowerDigit (value % 16)) = value % 16 := by
  have hall : ∀ n : Fin 16, isXDigit (lowerDigit n.val) ∧ toLower (lowerDigit n.val) = lowerDigit n.val ∧
      hexValue (lowerDigit n.val) = n.val := by decide
  exact hall ⟨value % 16, Nat.mod_lt value (by decide)⟩

theorem hexDigits_succ (n value : Nat) :
    hexDigits (n + 1) value = hexDigits n (value / 16) ++ [lowerDigit (value % 16)] := rfl

theorem hexDigits_lower (n value : Nat) :
    isHexText (hexDigits n value) ∧ (hexDigits n value).map toLower = hexDigits n value := by
  induction n generalizing value with
  | zero => exact ⟨rfl, rfl⟩
  | succ n ih =>
      obtain ⟨hhex, hlower⟩ := ih (value / 16)
      obtain ⟨hx, hl, _⟩ := digit_value value
      rw [hexDigits_succ, isHexText, List.all_append, List.map_append, hlower, List.map_singleton, hl]
      refine ⟨?_, rfl⟩
      rw [show (hexDigits n (value / 16)).all isXDigit = true from hhex]
      simpa using hx

/-- The digits determine the value. -/
theorem hexDigits_injective {n v w : Nat} (hv : v < 16 ^ n) (hw : w < 16 ^ n)
    (h : (hexDigits n v).map hexValue = (hexDigits n w).map hexValue) : v = w := by
  induction n generalizing v w with
  | zero => omega
  | succ n ih =>
      rw [hexDigits_succ, hexDigits_succ, List.map_append, List.map_append] at h
      obtain ⟨hinit, hlast⟩ := List.append_inj h (by simp [length_hexDigits])
      rw [List.map_singleton, List.map_singleton, (digit_value v).2.2, (digit_value w).2.2] at hlast
      have hmod : v % 16 = w % 16 := List.cons.inj hlast |>.1
      have hdiv : v / 16 = w / 16 := by
        refine ih ?_ ?_ hinit
        · rw [Nat.div_lt_iff_lt_mul (by decide), ← Nat.pow_succ]
          exact hv
        · rw [Nat.div_lt_iff_lt_mul (by decide), ← Nat.pow_succ]
          exact hw
      omega

theorem hexDigits_ends (n value : Nat) :
    (∀ ch ∈ (hexDigits n value).head?, isSpace ch = false) ∧ ∀ ch ∈ (hexDigits n value).getLast?, isSpace ch = false :=
  ⟨fun _ hm => (hexChar_of_mem (hexDigits_lower n value).1 (List.mem_of_head? hm)).space,
    fun _ hm => (hexChar_of_mem (hexDigits_lower n value).1 (List.mem_of_getLast? hm)).space⟩

/-- An accepted text is formatted as its normal form, which carries the same digits. -/
theorem formatted_of_accepted {uuid : BtUuid} (h : bleHostNormalizeUuid (btUuidToStr uuid) BLE_HOST_UUID_STR_LEN = some output) :
    Accepted (formatted uuid) ∧ uuidDigits (formatted uuid) = uuidDigits (btUuidToStr uuid) := by
  have hformat : formatted uuid = output := by
    simp only [formatted, bleHostFormatUuidFromBt, h, Option.getD_some]
  have hstable := normalize_normalized h
  rw [hformat]
  exact ⟨Option.isSome_iff_exists.mpr ⟨output, hstable⟩,
    digits_of_spelling (spelling_of_accepted (by decide) hstable) (spelling_of_accepted (by decide) h)⟩

theorem formatted_uuid16 (value : Nat) :
    Accepted (formatted (.uuid16 value)) ∧ uuidDigits (formatted (.uuid16 value)) = (hexDigits 4 value).map hexValue := by
  obtain ⟨hdrop, htrim⟩ := trim_eq _ (hexDigits_ends 4 value).1 (hexDigits_ends 4 value).2
  have hs : IsShort (hexDigits 4 value) (hexDigits 4 value) := ⟨.inl rfl, length_hexDigits 4 value, (hexDigits_lower 4 value).1⟩
  have hnorm : bleHostNormalizeUuid (btUuidToStr (.uuid16 value)) BLE_HOST_UUID_STR_LEN =
      some (ascii "0x" ++ (hexDigits 4 value).map toUpper) :=
    (normalize_iff (by decide)).mpr (.inl ⟨hexDigits 4 value, by rw [btUuidToStr, hdrop]; exact hs, rfl⟩)
  obtain ⟨haccepted, hdigits⟩ := formatted_of_accepted hnorm
  refine ⟨haccepted, hdigits.trans ?_⟩
  have htrimmed : IsShort (trimmed (btUuidToStr (.uuid16 value))) (hexDigits 4 value) := by
    rw [btUuidToStr, trimmed, hdrop, htrim]
    exact hs
  exact htrimmed.uuidDigits

theorem formatted_uuid128 (value : Nat) :
    Accepted (formatted (.uuid128 value)) ∧ uuidDigits (formatted (.uuid128 value)) = (hexDigits 32 value).map hexValue := by
  have hnorm : bleHostNormalizeUuid (btUuidToStr (.uuid128 value)) BLE_HOST_UUID_STR_LEN = some (btUuidToStr (.uuid128 value)) :=
    normalize_uuid128 ⟨hexDigits 32 value, length_hexDigits 32 value, (hexDigits_lower 32 value).1, (hexDigits_lower 32 value).2, rfl⟩
  obtain ⟨haccepted, hdigits⟩ := formatted_of_accepted hnorm
  refine ⟨haccepted, hdigits.trans ?_⟩
  exact digits_of_hyphenated (length_hexDigits 32 value) (hexDigits_lower 32 value).1
    (spelling_of_accepted (by decide) hnorm)

/-- Eight digits are neither form. -/
theorem formatted_uuid32 (value : Nat) : ¬Accepted (formatted (.uuid32 value)) := by
  obtain ⟨hdrop, htrim⟩ := trim_eq _ (hexDigits_ends 8 value).1 (hexDigits_ends 8 value).2
  have hlen : (hexDigits 8 value).length = 8 := length_hexDigits 8 value
  have hnone : bleHostNormalizeUuid (hexDigits 8 value) BLE_HOST_UUID_STR_LEN = none := by
    refine Option.eq_none_iff_forall_ne_some.mpr fun output hsome => ?_
    rcases (normalize_iff (by decide)).mp hsome with ⟨digits, hs, _⟩ | ⟨digits, hd, _⟩
    · rw [hdrop] at hs
      have hends := hs.ends.2.2.2
      omega
    · have hmany := hd.length_le
      rw [trimmed, hdrop, htrim, hlen] at hmany
      omega
  have hformat : formatted (.uuid32 value) = hexDigits 8 value := by
    rw [formatted, bleHostFormatUuidFromBt, btUuidToStr, hnone, Option.getD_none, snprintk]
    exact List.take_of_length_le (by rw [hlen]; decide)
  rw [Accepted, hformat, hnone]
  exact Bool.false_ne_true

/-- Discovery finds two UUIDs equal if they have one value in one form, and not in the form of 32 bits. -/
theorem formatted_equals_iff {u v : BtUuid} (hu : u.Valid) (hv : v.Valid) :
    bleHostUuidEquals (formatted u) (formatted v) ↔ u = v ∧ u.is32 = false := by
  have hmixed : ∀ v w, (hexDigits 4 v).map hexValue ≠ (hexDigits 32 w).map hexValue := by
    intro v w he
    have hlength := congrArg List.length he
    simp [length_hexDigits] at hlength
  have hnot : ∀ value, ¬Accepted (formatted (.uuid32 value)) := formatted_uuid32
  cases u with
  | uuid32 value => simpa [BtUuid.is32] using fun h => hnot value (accepted_of_equals h).1
  | uuid16 value =>
      cases v with
      | uuid32 value' => simpa using fun h => hnot value' (accepted_of_equals h).2
      | uuid16 value' =>
          rw [equals_iff_digits (formatted_uuid16 value).1 (formatted_uuid16 value').1, (formatted_uuid16 value).2,
            (formatted_uuid16 value').2]
          constructor
          · intro h
            rw [hexDigits_injective hu hv h]
            exact ⟨rfl, rfl⟩
          · rintro ⟨⟨⟩, _⟩
            rfl
      | uuid128 value' =>
          rw [equals_iff_digits (formatted_uuid16 value).1 (formatted_uuid128 value').1, (formatted_uuid16 value).2,
            (formatted_uuid128 value').2]
          simpa using hmixed value value'
  | uuid128 value =>
      cases v with
      | uuid32 value' => simpa using fun h => hnot value' (accepted_of_equals h).2
      | uuid16 value' =>
          rw [equals_iff_digits (formatted_uuid128 value).1 (formatted_uuid16 value').1, (formatted_uuid128 value).2,
            (formatted_uuid16 value').2]
          simpa using (hmixed value' value).symm
      | uuid128 value' =>
          rw [equals_iff_digits (formatted_uuid128 value).1 (formatted_uuid128 value').1, (formatted_uuid128 value).2,
            (formatted_uuid128 value').2]
          constructor
          · intro h
            rw [hexDigits_injective hu hv h]
            exact ⟨rfl, rfl⟩
          · rintro ⟨⟨⟩, _⟩
            rfl

theorem formatted_equals_heart_rate : bleHostUuidEquals (formatted (.uuid16 0x180d)) (formatted (.uuid16 0x180d)) :=
  have hvalid : (BtUuid.uuid16 0x180d).Valid := by
    show 0x180d < 16 ^ 4
    decide
  (formatted_equals_iff hvalid hvalid).mpr ⟨rfl, rfl⟩

/-- Other forms of one UUID, and even one value of 32 bits, are not found equal. -/
theorem expanded_equal_not_formatted :
    ((BtUuid.uuid16 0xfff0).expand = (BtUuid.uuid128 0x0000fff000001000800000805f9b34fb).expand ∧
      ¬bleHostUuidEquals (formatted (.uuid16 0xfff0)) (formatted (.uuid128 0x0000fff000001000800000805f9b34fb))) ∧
      ¬bleHostUuidEquals (formatted (.uuid32 0x12345678)) (formatted (.uuid32 0x12345678)) := by decide

end BleAtHost
