import BleAtHost.Main.Advertising

/-!
# Names in advertising payloads

The loop of the parser follows the structures of the payload up to the first that carries a name, and no access
leaves the payload or the name buffer.
-/

namespace BleAtHost.Main

open Ltv

/-- A name buffer in which a value is stored: what of it leaves room for the terminator, the terminator and the
old bytes. -/
def storeName (name value : List Byte) : List Byte :=
  value.take (name.length - 1) ++ 0 :: name.drop ((value.take (name.length - 1)).length + 1)

theorem length_copied {name : List Byte} (value : List Byte) (hn : 0 < name.length) :
    (value.take (name.length - 1)).length < name.length := by
  rw [List.length_take]
  omega

theorem terminate_zero {name : List Byte} (hn : 0 < name.length) : terminate name 0 = some (storeName name []) := by
  cases name with
  | nil => exact absurd hn (Nat.lt_irrefl 0)
  | cons ch name => simp [terminate, storeName]

theorem length_storeName {name : List Byte} (value : List Byte) (hn : 0 < name.length) :
    (storeName name value).length = name.length := by
  have := length_copied value hn
  simp only [storeName, List.length_append, List.length_cons, List.length_drop]
  omega

/-- The terminator that the parser stores first is overwritten or stays. -/
theorem storeName_storeName {name : List Byte} (value : List Byte) (hn : 0 < name.length) :
    storeName (storeName name []) value = storeName name value := by
  cases name with
  | nil => exact absurd hn (Nat.lt_irrefl 0)
  | cons ch name => simp [storeName]

/-- The copy of a value and the terminator after it. -/
theorem copyName_eq {name : List Byte} (value : List Byte) (hn : 0 < name.length) :
    ((memcpy name (value.take (name.length - 1))).bind fun name' =>
      terminate name' (min value.length (name.length - 1))) = some (storeName name value) := by
  have hlt := length_copied value hn
  have hmin : min value.length (name.length - 1) = (value.take (name.length - 1)).length := by
    rw [List.length_take, Nat.min_comm]
  rw [hmin, memcpy, if_pos (Nat.le_of_lt hlt), Option.bind_some, terminate, if_pos, storeName]
  · rw [List.set_append_right _ _ (Nat.le_refl _), Nat.sub_self, List.drop_eq_getElem_cons hlt, List.set_cons_zero]
  · simp only [List.length_append, List.length_drop]
    omega

variable {ad full : NetBufSimple} {name rest : List Byte} {fields : List Field} {passes : Nat}

theorem parseDeviceNameLoop_broken (hb : Broken ad.bytes) (hbuf : ad.buf = full.buf) :
    parseDeviceNameLoop full.save name.length (passes + 1) ad name = some (name, full) := by
  have hrestore := NetBufSimple.restore_save hbuf
  rw [parseDeviceNameLoop]
  split
  · rw [hrestore, Option.map_some]
  · rename_i hlen
    rw [← NetBufSimple.length_bytes] at hlen
    cases hbytes : ad.bytes with
    | nil => simp [hbytes] at hlen
    | cons len body =>
        obtain ⟨ad', hpull, hrest, hbuf'⟩ := NetBufSimple.pullU8_cons hbytes
        rw [hbytes] at hb
        have hbad : len = 0 ∨ ad'.len < len.toNat := by
          rw [← NetBufSimple.length_bytes, hrest]
          exact hb
        simp only [hpull, Option.bind_eq_bind, Option.bind_some, if_pos hbad,
          NetBufSimple.restore_save (hbuf'.trans hbuf), Option.map_some]

/-- A pass over a structure. -/
theorem parseDeviceNameLoop_field {f : Field} (passes : Nat) (h : ad.bytes = f.encode ++ rest) (hbuf : ad.buf = full.buf)
    (hn : 0 < name.length) : ∃ ad', ad'.bytes = rest ∧ ad'.buf = full.buf ∧
      parseDeviceNameLoop full.save name.length (passes + 1) ad name =
        if isNameField f then some (storeName name f.value, full)
        else parseDeviceNameLoop full.save name.length passes ad' name := by
  rw [Field.encode_append] at h
  obtain ⟨ad₁, hpull₁, hrest₁, hbuf₁⟩ := NetBufSimple.pullU8_cons h
  obtain ⟨ad₂, hpull₂, hrest₂, hbuf₂⟩ := NetBufSimple.pullU8_cons hrest₁
  obtain ⟨ad₃, hpull₃, hrest₃, hbuf₃⟩ := NetBufSimple.pull_append hrest₂
  have hfull₂ : ad₂.buf = full.buf := hbuf₂.trans (hbuf₁.trans hbuf)
  have hlen : ¬ad.len ≤ 1 := by
    rw [← NetBufSimple.length_bytes, h]
    simp
  have hlen₁ : ad₁.len = f.value.length + rest.length + 1 := by
    rw [← NetBufSimple.length_bytes, hrest₁, List.length_cons, List.length_append]
  have hgood : ¬(UInt8.ofNat (f.value.length + 1) = 0 ∨ ad₁.len < (UInt8.ofNat (f.value.length + 1)).toNat) := by
    rintro (hz | hlt)
    · have := congrArg UInt8.toNat hz
      rw [f.toNat_length] at this
      exact absurd this (Nat.succ_ne_zero _)
    · rw [f.toNat_length] at hlt
      omega
  have hvalueLen : (UInt8.ofNat (f.value.length + 1) - 1).toNat = f.value.length := by
    rw [UInt8.toNat_sub_of_le _ _ (by rw [UInt8.le_iff_toNat_le, f.toNat_length]; simp), f.toNat_length]
    rfl
  refine ⟨ad₃, hrest₃, hbuf₃.trans hfull₂, ?_⟩
  rw [parseDeviceNameLoop, if_neg hlen]
  simp only [hpull₁, Option.bind_eq_bind, Option.bind_some, if_neg hgood, hpull₂, hvalueLen]
  by_cases hname : isNameField f
  · have htype : f.type = BT_DATA_NAME_COMPLETE ∨ f.type = BT_DATA_NAME_SHORTENED := by
      simpa [isNameField] using hname
    have hread := NetBufSimple.read_append hrest₂ (Nat.min_le_left f.value.length (name.length - 1))
    have htake : f.value.take (min f.value.length (name.length - 1)) = f.value.take (name.length - 1) := by
      rw [List.take_eq_take_iff, Nat.min_comm f.value.length, Nat.min_assoc, Nat.min_self]
    rw [if_pos htype, if_pos hname, hread, Option.bind_some, htake]
    have hcopy := copyName_eq f.value hn
    cases hm : memcpy name (f.value.take (name.length - 1)) with
    | none => simp [hm] at hcopy
    | some copied =>
        rw [hm, Option.bind_some] at hcopy
        rw [Option.bind_some, hcopy, Option.bind_some, NetBufSimple.restore_save hfull₂, Option.map_some]
  · have htype : ¬(f.type = BT_DATA_NAME_COMPLETE ∨ f.type = BT_DATA_NAME_SHORTENED) := by
      simpa [isNameField] using hname
    rw [if_neg htype, if_neg hname, hpull₃, Option.bind_some]

theorem parseDeviceNameLoop_reads (h : Reads ad.bytes fields) (hbuf : ad.buf = full.buf) (hn : 0 < name.length)
    (hp : ad.len < passes) :
    parseDeviceNameLoop full.save name.length passes ad name =
      some (((nameAmong fields).map (storeName name)).getD name, full) := by
  obtain ⟨last, hbytes, hb⟩ := h
  induction fields generalizing ad passes with
  | nil =>
      obtain ⟨passes, rfl⟩ := Nat.exists_eq_add_one_of_ne_zero (Nat.ne_zero_of_lt hp)
      have hbad : Broken ad.bytes := by rw [hbytes]; exact hb
      rw [parseDeviceNameLoop_broken hbad hbuf]
      rfl
  | cons f fields ih =>
      obtain ⟨passes, rfl⟩ := Nat.exists_eq_add_one_of_ne_zero (Nat.ne_zero_of_lt hp)
      rw [encode_cons, List.append_assoc] at hbytes
      obtain ⟨ad', hrest, hbuf', heq⟩ := parseDeviceNameLoop_field passes hbytes hbuf hn
      rw [heq, nameAmong, List.find?_cons]
      cases hname : isNameField f with
      | true => rfl
      | false =>
          have hlt : ad'.len < ad.len := by
            rw [← NetBufSimple.length_bytes, ← NetBufSimple.length_bytes, hrest, hbytes, Field.encode_append]
            simp only [List.length_cons, List.length_append]
            omega
          exact ih hbuf' (by omega) hrest

/-! ## The parser on texts -/

theorem findDeviceName_reads {ad : List Byte} (h : Reads ad fields) (hp : ad.length ≤ passes) :
    findDeviceName passes ad = (nameAmong fields).getD [] := by
  obtain ⟨last, rfl, hb⟩ := h
  induction fields generalizing passes with
  | nil =>
      show findDeviceName passes last = []
      cases passes with
      | zero => rfl
      | succ passes =>
          cases last with
          | nil => rfl
          | cons len body =>
              have hbad : len.toNat = 0 ∨ body.length < len.toNat := by
                rcases hb with rfl | hlt
                · exact .inl rfl
                · exact .inr hlt
              simp only [findDeviceName, if_pos hbad, ite_self]
  | cons f fields ih =>
      rw [encode_cons, List.append_assoc, Field.encode_append] at hp ⊢
      cases passes with
      | zero => simp at hp
      | succ passes =>
          have hgood : ¬(f.type :: (f.value ++ (encode fields ++ last))).length < f.value.length + 1 := by
            simp only [List.length_cons, List.length_append]
            omega
          simp only [findDeviceName, reduceCtorEq, if_false, f.toNat_length, Nat.add_sub_cancel,
            Nat.succ_ne_zero, false_or, if_neg hgood, nameAmong, List.find?_cons]
          cases hname : isNameField f with
          | true =>
              have htype : f.type = 9 ∨ f.type = 8 := by
                simpa [isNameField, BT_DATA_NAME_COMPLETE, BT_DATA_NAME_SHORTENED] using hname
              rw [if_pos htype, List.take_left]
              rfl
          | false =>
              have htype : ¬(f.type = 9 ∨ f.type = 8) := by
                simpa [isNameField, BT_DATA_NAME_COMPLETE, BT_DATA_NAME_SHORTENED] using hname
              simp only [List.length_cons, List.length_append] at hp
              rw [if_neg htype, List.drop_left]
              refine ih ?_
              rw [List.length_append]
              omega

theorem parseDeviceName_reads {ad : List Byte} (h : Reads ad fields) (nameLen : Nat) :
    parseDeviceName ad nameLen = cString (((nameAmong fields).getD []).take (nameLen - 1)) := by
  rw [parseDeviceName, findDeviceName_reads h (Nat.le_refl _)]

theorem cString_terminated (text rest : List Byte) : cString (text ++ 0 :: rest) = cString text := by
  induction text with
  | nil => rfl
  | cons ch text ih => by_cases hz : ch = 0 <;> simp_all [cString]

/-! ## The parser on its buffers -/

theorem parseDeviceNameInto_reads (h : Reads ad.bytes fields) (hn : 1 ≤ name.length) :
    parseDeviceNameInto ad name name.length = some (storeName name ((nameAmong fields).getD []), ad) := by
  rw [parseDeviceNameInto, terminate_zero hn, Option.bind_eq_bind, Option.bind_some]
  have hlen := length_storeName [] hn
  have hpos : 0 < (storeName name []).length := by omega
  have hloop := parseDeviceNameLoop_reads h rfl hpos (Nat.lt_succ_self ad.len)
  rw [hlen] at hloop
  rw [hloop]
  cases nameAmong fields with
  | none => rfl
  | some value => rw [Option.map_some, Option.getD_some, storeName_storeName value hn, Option.getD_some]

/-- The parser ends without an access outside the payload or the name buffer, leaves the payload as it was and
stores the first name among the structures of the payload, cut so that the terminator fits. -/
theorem parseDeviceNameInto_exact (ad : NetBufSimple) (name : List Byte) (hn : 1 ≤ name.length) :
    ∃ fields, Reads ad.bytes fields ∧ (∀ other, Reads ad.bytes other → other = fields) ∧
      ∃ text, text = ((nameAmong fields).getD []).take (name.length - 1) ∧ text.length < name.length ∧
        parseDeviceNameInto ad name name.length = some (text ++ 0 :: name.drop (text.length + 1), ad) := by
  obtain ⟨fields, hfields⟩ := reads_exists ad.bytes
  exact ⟨fields, hfields, fun other hother => hother.unique hfields, _, rfl, length_copied _ hn,
    parseDeviceNameInto_reads hfields hn⟩

/-- Two structures with a name in a payload that ends in a broken one, and a buffer for five bytes. -/
theorem parseDeviceNameInto_exact_five :
    1 ≤ [7, 7, 7, 7, 7].length ∧
      ∃ fields, Reads (NetBufSimple.ofBytes [2, 1, 6, 6, 8, 98, 101, 97, 99, 111, 2, 9, 120, 0]).bytes fields ∧
        (∀ other, Reads (NetBufSimple.ofBytes [2, 1, 6, 6, 8, 98, 101, 97, 99, 111, 2, 9, 120, 0]).bytes other →
          other = fields) ∧
        ∃ text, text = ((nameAmong fields).getD []).take 4 ∧ text.length < 5 ∧
          parseDeviceNameInto (.ofBytes [2, 1, 6, 6, 8, 98, 101, 97, 99, 111, 2, 9, 120, 0]) [7, 7, 7, 7, 7] 5 =
            some (text ++ 0 :: [7, 7, 7, 7, 7].drop (text.length + 1),
              .ofBytes [2, 1, 6, 6, 8, 98, 101, 97, 99, 111, 2, 9, 120, 0]) :=
  ⟨by decide, parseDeviceNameInto_exact (.ofBytes [2, 1, 6, 6, 8, 98, 101, 97, 99, 111, 2, 9, 120, 0])
    [7, 7, 7, 7, 7] (by decide)⟩

example :
    parseDeviceNameInto (.ofBytes [2, 1, 6, 6, 8, 98, 101, 97, 99, 111, 2, 9, 120, 0]) [7, 7, 7, 7, 7] 5 =
      some ([98, 101, 97, 99, 0], .ofBytes [2, 1, 6, 6, 8, 98, 101, 97, 99, 111, 2, 9, 120, 0]) := by decide

/-- The text that the name buffer then holds is the one with which a report is handled. -/
theorem parseDeviceNameInto_cString (ad : NetBufSimple) {name : List Byte} (hn : 1 ≤ name.length) :
    (parseDeviceNameInto ad name name.length).map (fun r => cString r.1) =
      some (parseDeviceName ad.bytes name.length) := by
  obtain ⟨fields, hfields⟩ := reads_exists ad.bytes
  rw [parseDeviceNameInto_reads hfields hn, Option.map_some, parseDeviceName_reads hfields]
  exact congrArg some (cString_terminated _ _)

end BleAtHost.Main
