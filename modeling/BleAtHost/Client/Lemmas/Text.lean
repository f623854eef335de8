import Mathlib.Data.List.TakeWhile
import BleAtHost.Client.Text
import BleAtHost.Lemmas.Formats

/-!
# Decoding and taking apart text

ASCII bytes decode to themselves wherever they stand, also between bytes that are no UTF-8. A field that does not hold
the separator is split off, and the text of a number is read back.
-/

namespace BleAtHost.Client

/-! ## Bytes below 128 -/

def charOf (b : Byte) : Char := Char.ofNat b.toNat

/-- ASCII bytes as text. -/
def chars (text : Text) : Str := text.map charOf

/-! One equation for each way in which a byte is taken. -/

theorem decodeFrom_fresh {pending : List Byte} {b : Byte} (h : continues pending b = false) (rest : List Byte) :
    decodeFrom pending (b :: rest) = decodeFrom pending [] ++ decode (b :: rest) := by
  cases pending with
  | nil => rfl
  | cons lead more => simp [decodeFrom, h, decode]

theorem decodeFrom_more {lead b : Byte} {more : List Byte} (h : continues (lead :: more) b = true)
    (hn : more.length + 2 ≠ sequenceLen lead) (rest : List Byte) :
    decodeFrom (lead :: more) (b :: rest) = decodeFrom (lead :: more ++ [b]) rest := by
  simp [decodeFrom, h, hn]

theorem decodeFrom_last {lead b : Byte} {more : List Byte} (h : continues (lead :: more) b = true)
    (hn : more.length + 2 = sequenceLen lead) (rest : List Byte) :
    decodeFrom (lead :: more) (b :: rest) = codePoint lead (more ++ [b]) :: decode rest := by
  simp [decodeFrom, h, hn, decode]

theorem decode_cons_ascii {b : Byte} (hb : b < 0x80) (rest : List Byte) : decode (b :: rest) = charOf b :: decode rest := by
  simp [decode, decodeFrom, hb, charOf]

theorem decode_cons_bad {b : Byte} (hb : ¬b < 0x80) (hbad : b < 0xC2 ∨ 0xF5 ≤ b) (rest : List Byte) :
    decode (b :: rest) = REPLACEMENT :: decode rest := by
  simp [decode, decodeFrom, hb, hbad]

theorem decode_cons_lead {b : Byte} (hb : ¬b < 0x80) (hlead : ¬(b < 0xC2 ∨ 0xF5 ≤ b)) (rest : List Byte) :
    decode (b :: rest) = decodeFrom [b] rest := by
  simp [decode, decodeFrom, hb, hlead]

theorem continues_ascii (pending : List Byte) {b : Byte} (hb : b < 0x80) : continues pending b = false := by
  have hlow : isContinuation b = false := by
    simp only [isContinuation, Bool.and_eq_false_imp, decide_eq_true_eq]
    intro hle
    exact absurd hb (UInt8.not_lt.mpr hle)
  match pending with
  | [] => rfl
  | [lead] => simp [continues, hlow]
  | _ :: _ :: _ => simp [continues, hlow]

/-- A byte below 128 ends whatever stands before it. -/
theorem decodeFrom_append_ascii (pending bytes : List Byte) {b : Byte} (hb : b < 0x80) (rest : List Byte) :
    decodeFrom pending (bytes ++ b :: rest) = decodeFrom pending bytes ++ charOf b :: decode rest := by
  induction bytes generalizing pending with
  | nil => rw [List.nil_append, decodeFrom_fresh (continues_ascii pending hb), decode_cons_ascii hb]
  | cons c bytes ih =>
      rw [List.cons_append]
      cases hcont : continues pending c with
      | false =>
          have hstart : decode (c :: (bytes ++ b :: rest)) = decode (c :: bytes) ++ charOf b :: decode rest := by
            by_cases hc : c < 0x80
            · rw [decode_cons_ascii hc, decode_cons_ascii hc, decode, decode, ih]
              rfl
            · by_cases hbad : c < 0xC2 ∨ 0xF5 ≤ c
              · rw [decode_cons_bad hc hbad, decode_cons_bad hc hbad, decode, decode, ih]
                rfl
              · rw [decode_cons_lead hc hbad, decode_cons_lead hc hbad, ih]
          rw [decodeFrom_fresh hcont, decodeFrom_fresh hcont, hstart, List.append_assoc]
      | true =>
          cases pending with
          | nil => cases hcont
          | cons lead more =>
              by_cases hn : more.length + 2 = sequenceLen lead
              · rw [decodeFrom_last hcont hn, decodeFrom_last hcont hn, decode, decode, ih]
                rfl
              · rw [decodeFrom_more hcont hn, decodeFrom_more hcont hn, ih]

theorem decode_append_ascii (bytes : List Byte) {b : Byte} (hb : b < 0x80) (rest : List Byte) :
    decode (bytes ++ b :: rest) = decode bytes ++ charOf b :: decode rest := decodeFrom_append_ascii [] bytes hb rest

theorem decode_ascii_append {text : Text} (h : ∀ b ∈ text, b < 0x80) (rest : List Byte) :
    decode (text ++ rest) = chars text ++ decode rest := by
  induction text with
  | nil => rfl
  | cons b text ih =>
      have hfirst := decode_append_ascii [] (h b List.mem_cons_self) (text ++ rest)
      have hrest := ih fun c hc => h c (List.mem_cons_of_mem _ hc)
      rw [List.nil_append] at hfirst
      rw [List.cons_append, hfirst, hrest]
      rfl

theorem decode_ascii {text : Text} (h : ∀ b ∈ text, b < 0x80) : decode text = chars text := by
  have hnil := decode_ascii_append h []
  rw [List.append_nil] at hnil
  rw [hnil]
  exact List.append_nil _

theorem mem_decode_of_mem {bytes : List Byte} {b : Byte} (hb : b < 0x80) (h : b ∈ bytes) :
    charOf b ∈ decode bytes := by
  obtain ⟨before, after, rfl⟩ := List.append_of_mem h
  rw [decode_append_ascii before hb]
  simp

/-! ## A separator is not made up -/

/-- The beginning of a sequence. -/
def Begun : List Byte → Prop
  | [] => True
  | lead :: more => 0xC2 ≤ lead ∧ lead < 0xF5 ∧ more.length + 1 < sequenceLen lead ∧
      ∀ b ∈ more.head?, continues [lead] b = true

theorem Begun.push {lead b : Byte} {more : List Byte} (h : Begun (lead :: more))
    (hc : continues (lead :: more) b = true) (hn : more.length + 2 ≠ sequenceLen lead) :
    Begun (lead :: (more ++ [b])) := by
  obtain ⟨hlow, hhigh, hlen, hhead⟩ := h
  refine ⟨hlow, hhigh, ?_, ?_⟩
  · rw [List.length_append, List.length_singleton]
    omega
  · cases more with
    | nil => simpa using hc
    | cons second more => simpa using hhead

theorem toNat_ofNat_of_valid {n : Nat} (h : n.isValidChar) : (Char.ofNat n).toNat = n := by
  unfold Char.ofNat
  rw [dif_pos h]
  unfold Char.ofNatAux Char.toNat
  simp

theorem ofNat_ne_comma {n : Nat} (h : n ≠ 44) : Char.ofNat n ≠ ',' := by
  by_cases hn : n.isValidChar
  · intro he
    have hval := congrArg Char.toNat he
    rw [toNat_ofNat_of_valid hn] at hval
    exact h hval
  · unfold Char.ofNat
    rw [dif_neg hn]
    decide

/-- The second byte of a longer sequence is not too low. -/
theorem second_of_continues {lead b : Byte} (h : continues [lead] b = true) :
    (lead.toNat = 0xE0 → 32 ≤ b.toNat % 64) ∧ (lead.toNat = 0xF0 → 16 ≤ b.toNat % 64) := by
  simp only [continues, isContinuation, Bool.and_eq_true, Bool.not_eq_true', Bool.and_eq_false_imp, beq_iff_eq,
    decide_eq_true_eq, decide_eq_false_iff_not, UInt8.le_iff_toNat_le, UInt8.lt_iff_toNat_lt] at h
  obtain ⟨⟨⟨⟨⟨h80, hBF⟩, hE0⟩, hED⟩, hF0⟩, hF4⟩ := h
  have h80' : 128 ≤ b.toNat := h80
  have hBF' : b.toNat ≤ 191 := hBF
  refine ⟨fun hl => ?_, fun hl => ?_⟩
  · have hlow : ¬b.toNat < 160 := hE0 (UInt8.toNat_inj.mp hl)
    omega
  · have hlow : ¬b.toNat < 144 := hF0 (UInt8.toNat_inj.mp hl)
    omega

theorem Begun.codePoint_ne_comma {lead b : Byte} {more : List Byte} (h : Begun (lead :: more))
    (hc : continues (lead :: more) b = true) (hn : more.length + 2 = sequenceLen lead) :
    codePoint lead (more ++ [b]) ≠ ',' := by
  obtain ⟨hlow, hhigh, -, hhead⟩ := h
  apply ofNat_ne_comma
  have hlow' : 0xC2 ≤ lead.toNat := UInt8.le_iff_toNat_le.mp hlow
  have hhigh' : lead.toNat < 0xF5 := UInt8.lt_iff_toNat_lt.mp hhigh
  by_cases h2 : lead < 0xE0
  · have hlead : lead.toNat < 0xE0 := UInt8.lt_iff_toNat_lt.mp h2
    have hsize : sequenceLen lead = 2 := if_pos h2
    obtain rfl : more = [] := List.length_eq_zero_iff.mp (by omega)
    simp only [hsize, List.nil_append, List.foldl_cons, List.foldl_nil]
    omega
  · have hlead : 0xE0 ≤ lead.toNat := Nat.not_lt.mp fun hlt => h2 (UInt8.lt_iff_toNat_lt.mpr hlt)
    cases more with
    | nil =>
        have hsize : 2 < sequenceLen lead := by
          simp only [sequenceLen, h2, if_false]
          split
          · omega
          · omega
        simp at hn
        omega
    | cons second more =>
        obtain ⟨hE0, hF0⟩ := second_of_continues (hhead second rfl)
        by_cases h3 : lead < 0xF0
        · have hlead' : lead.toNat < 0xF0 := UInt8.lt_iff_toNat_lt.mp h3
          have hsize : sequenceLen lead = 3 := by simp [sequenceLen, h2, h3]
          obtain rfl : more = [] := List.length_eq_zero_iff.mp (by simp at hn; omega)
          simp only [hsize, List.cons_append, List.nil_append, List.foldl_cons, List.foldl_nil]
          omega
        · have hlead' : 0xF0 ≤ lead.toNat := Nat.not_lt.mp fun hlt => h3 (UInt8.lt_iff_toNat_lt.mpr hlt)
          have hsize : sequenceLen lead = 4 := by simp [sequenceLen, h2, h3]
          obtain ⟨third, rfl⟩ : ∃ third, more = [third] := List.length_eq_one_iff.mp (by simp at hn; omega)
          simp only [hsize, List.cons_append, List.nil_append, List.foldl_cons, List.foldl_nil]
          omega

theorem comma_not_mem_decodeFrom {pending bytes : List Byte} (hp : Begun pending) (h : 44 ∉ bytes) :
    ',' ∉ decodeFrom pending bytes := by
  have hrest : ∀ pending, ',' ∉ decodeFrom pending [] := by
    intro pending
    simp only [decodeFrom]
    split
    · simp
    · decide
  induction bytes generalizing pending with
  | nil => exact hrest pending
  | cons c bytes ih =>
      obtain ⟨hc44, hbytes⟩ := not_or.mp (mt List.mem_cons.mpr h)
      have hnext : ',' ∉ decode bytes := ih trivial hbytes
      cases hcont : continues pending c with
      | false =>
          have hstart : ',' ∉ decode (c :: bytes) := by
            by_cases hc : c < 0x80
            · have hne : charOf c ≠ ',' := ofNat_ne_comma fun he => hc44 (UInt8.toNat_inj.mp he).symm
              rw [decode_cons_ascii hc]
              exact List.not_mem_cons_of_ne_of_not_mem hne.symm hnext
            · by_cases hbad : c < 0xC2 ∨ 0xF5 ≤ c
              · rw [decode_cons_bad hc hbad]
                exact List.not_mem_cons_of_ne_of_not_mem (by decide) hnext
              · rw [decode_cons_lead hc hbad]
                obtain ⟨hlow, hhigh⟩ := not_or.mp hbad
                refine ih ⟨UInt8.not_lt.mp hlow, UInt8.not_le.mp hhigh, ?_, by simp⟩ hbytes
                simp only [sequenceLen, List.length_nil]
                split
                · omega
                · split
                  · omega
                  · omega
          rw [decodeFrom_fresh hcont, List.mem_append]
          exact not_or.mpr ⟨hrest pending, hstart⟩
      | true =>
          cases pending with
          | nil => cases hcont
          | cons lead more =>
              by_cases hn : more.length + 2 = sequenceLen lead
              · rw [decodeFrom_last hcont hn]
                exact List.not_mem_cons_of_ne_of_not_mem (hp.codePoint_ne_comma hcont hn).symm hnext
              · rw [decodeFrom_more hcont hn]
                exact ih (hp.push hcont hn) hbytes

theorem comma_mem_decode {bytes : List Byte} : ',' ∈ decode bytes ↔ 44 ∈ bytes := by
  constructor
  · intro h
    by_contra hn
    have hnil : Begun [] := trivial
    exact comma_not_mem_decodeFrom hnil hn h
  · exact mem_decode_of_mem (by decide)

/-! ## `str.split` -/

variable {sep : Char}

theorem split_append {field rest : Str} (h : sep ∉ field) (n : Nat) :
    split sep (n + 1) (field ++ sep :: rest) = field :: split sep n rest := by
  have hall : ∀ c ∈ field, decide (c ≠ sep) = true := fun c hc => decide_eq_true fun he => h (he ▸ hc)
  have hdrop : (field ++ sep :: rest).dropWhile (· ≠ sep) = sep :: rest := by
    rw [List.dropWhile_append_of_pos hall]
    exact List.dropWhile_cons_of_neg (by simp)
  have htake : (field ++ sep :: rest).takeWhile (· ≠ sep) = field := by
    rw [List.takeWhile_append_of_pos hall, List.takeWhile_cons_of_neg (by simp), List.append_nil]
  rw [split, hdrop, htake]

/-- Only the last field may hold the separator. -/
theorem split_dropLast (n : Nat) (s : Str) : ∀ field ∈ (split sep n s).dropLast, sep ∉ field := by
  induction n generalizing s with
  | zero => simp [split]
  | succ n ih =>
      rw [split]
      split
      · simp
      · rename_i c rest _
        intro field hfield
        have hne : split sep n rest ≠ [] := by
          cases n with
          | zero => simp [split]
          | succ n =>
              rw [split]
              split
              · simp
              · simp
        rw [List.dropLast_cons_of_ne_nil hne] at hfield
        rcases List.mem_cons.mp hfield with rfl | hrest
        · intro hmem
          simpa using List.mem_takeWhile_imp hmem
        · exact ih rest field hrest

/-! ## `str.strip` -/

theorem stripBy_eq {drop : Char → Bool} {first last : Char} {middle : Str} (hf : drop first = false)
    (hl : drop last = false) {tail : Str} (ht : ∀ c ∈ tail, drop c = true) :
    stripBy drop (first :: (middle ++ last :: tail)) = first :: (middle ++ [last]) := by
  have hback : (first :: (middle ++ last :: tail)).reverse = tail.reverse ++ (last :: (first :: middle).reverse) := by
    simp
  have htail : ∀ c ∈ tail.reverse, drop c = true := fun c hc => ht c (List.mem_reverse.mp hc)
  rw [stripBy, List.dropWhile_cons_of_neg (by simp [hf]), hback, List.dropWhile_append_of_pos htail,
    List.dropWhile_cons_of_neg (by simp [hl])]
  simp

theorem stripBy_getLast {drop : Char → Bool} {s : Str} {c : Char} (h : c ∈ (stripBy drop s).getLast?) :
    drop c = false := by
  rw [stripBy, List.getLast?_reverse] at h
  have hnot := List.head?_dropWhile_not drop (s.dropWhile drop).reverse
  rw [Option.mem_def.mp h] at hnot
  exact hnot

theorem stripBy_of_not_mem {drop : Char → Bool} {s : Str} (h : ∀ c ∈ s, drop c = false) : stripBy drop s = s := by
  have hnone : ∀ t : Str, (∀ c ∈ t, drop c = false) → t.dropWhile drop = t := by
    intro t ht
    cases t with
    | nil => rfl
    | cons c t => exact List.dropWhile_cons_of_neg (by simp [ht c List.mem_cons_self])
  rw [stripBy, hnone s h, hnone s.reverse fun c hc => h c (List.mem_reverse.mp hc), List.reverse_reverse]

theorem stripBy_ne_nil {drop : Char → Bool} {s : Str} {c : Char} (hc : c ∈ s) (hd : drop c = false) :
    stripBy drop s ≠ [] := by
  intro h
  have htrim : (s.dropWhile drop).reverse.dropWhile drop = [] := List.reverse_eq_nil_iff.mp h
  have hall : ∀ x ∈ (s.dropWhile drop).reverse, drop x = true := List.dropWhile_eq_nil_iff.mp htrim
  -- the character is not among the ones that are dropped in front
  have hmem : c ∈ s.dropWhile drop := by
    rcases List.mem_append.mp (List.takeWhile_append_dropWhile (p := drop) ▸ hc : c ∈ s.takeWhile drop ++ s.dropWhile drop)
      with hfront | hrest
    · rw [List.mem_takeWhile_imp hfront] at hd
      cases hd
    · exact hrest
  rw [hall c (List.mem_reverse.mpr hmem)] at hd
  cases hd

/-! ## Numbers -/

theorem digitValue_of_isDigit {c : Char} (h : c.isDigit = true) : digitValue c = some (c.toNat - 48) := by
  have hbounds := isDigit_bounds h
  have hfirst : (decide (0x30 ≤ c.toNat) && decide (c.toNat < 0x30 + 10)) = true := by
    simp only [Bool.and_eq_true, decide_eq_true_eq]
    omega
  have hfind : decimalZeros.find? (fun first => first ≤ c.toNat && c.toNat < first + 10) = some 0x30 :=
    List.find?_cons_of_pos hfirst
  rw [digitValue, hfind]
  rfl

theorem parseDigits_eq {s : Str} (h : ∀ c ∈ s, c.isDigit = true) (n : Nat) :
    parseDigits n s = some (Nat.ofDigitChars 10 s n) := by
  induction s generalizing n with
  | nil => rfl
  | cons c s ih =>
      have hc := h c List.mem_cons_self
      have hunder : c ≠ '_' := by
        rintro rfl
        cases hc
      have hstep : parseDigits n (c :: s) = parseDigits (n * 10 + (c.toNat - 48)) s := by
        cases s with
        | nil => simp [parseDigits, digitValue_of_isDigit hc]
        | cons d s => simp [parseDigits, hunder, digitValue_of_isDigit hc]
      rw [hstep, ih (fun d hd => h d (List.mem_cons_of_mem _ hd)), Nat.ofDigitChars_cons, Nat.mul_comm]
      rfl

theorem parseNat_toDigits (n : Nat) : parseNat (Nat.toDigits 10 n) = some n := by
  have hvalue : Nat.ofDigitChars 10 (Nat.toDigits 10 n) 0 = n := Nat.ofDigitChars_ten_toDigits
  have hdigits : ∀ c ∈ Nat.toDigits 10 n, c.isDigit = true := fun c hc => isDigit_toDigits hc
  cases hs : Nat.toDigits 10 n with
  | nil => exact absurd hs Nat.toDigits_ne_nil
  | cons c s =>
      rw [hs] at hvalue hdigits
      have hc := hdigits c List.mem_cons_self
      rw [Nat.ofDigitChars_cons] at hvalue
      have hzero : 10 * 0 + (c.toNat - '0'.toNat) = c.toNat - 48 := Nat.zero_add _
      rw [hzero] at hvalue
      simp only [parseNat, digitValue_of_isDigit hc]
      rw [parseDigits_eq fun d hd => hdigits d (List.mem_cons_of_mem _ hd), hvalue]

theorem ofInt_chars {n : Int} {c : Char} (h : c ∈ ofInt n) : c = '-' ∨ c.isDigit = true := by
  unfold ofInt at h
  split at h
  · rcases List.mem_cons.mp h with rfl | hc
    · exact .inl rfl
    · exact .inr (isDigit_toDigits hc)
  · exact .inr (isDigit_toDigits h)

theorem not_space_of_number {c : Char} (h : c = '-' ∨ c.isDigit = true) : isSpaceChar c = false := by
  rcases h with rfl | hc
  · decide
  · have hbounds := isDigit_bounds hc
    simp [isSpaceChar]
    omega

theorem toInt_ofInt (n : Int) : toInt (ofInt n) = some n := by
  have hspace : ∀ c ∈ ofInt n, (isSpaceChar c && !(28 ≤ c.toNat && c.toNat ≤ 31)) = false := by
    intro c hc
    rw [not_space_of_number (ofInt_chars hc), Bool.false_and]
  rw [toInt, stripBy_of_not_mem hspace]
  by_cases hneg : n < 0
  · have htext : ofInt n = '-' :: Nat.toDigits 10 n.natAbs := if_pos hneg
    have hvalue : -(n.natAbs : Int) = n := by omega
    simp only [htext, parseNat_toDigits]
    exact congrArg some hvalue
  · have htext : ofInt n = Nat.toDigits 10 n.natAbs := if_neg hneg
    have hvalue : (n.natAbs : Int) = n := by omega
    have hnat := parseNat_toDigits n.natAbs
    rw [htext]
    split
    · rename_i rest hs
      have hdigit := isDigit_toDigits (hs ▸ List.mem_cons_self : '-' ∈ Nat.toDigits 10 n.natAbs)
      cases hdigit
    · rename_i rest hs
      have hdigit := isDigit_toDigits (hs ▸ List.mem_cons_self : '+' ∈ Nat.toDigits 10 n.natAbs)
      cases hdigit
    · rw [hnat]
      exact congrArg some hvalue

end BleAtHost.Client
