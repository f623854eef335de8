import Mathlib.Data.List.Basic
import Mathlib.Tactic.Common

/-!
# Length-type-value structures

A row of structures, each a length byte, a type byte and a value; the length counts the type byte and the value.
A row ends where no structure begins.
-/

namespace Ltv

structure Field where
  type : UInt8
  value : List UInt8
  fits : value.length < 255

def Field.encode (f : Field) : List UInt8 := UInt8.ofNat (f.value.length + 1) :: f.type :: f.value

def encode (fields : List Field) : List UInt8 := fields.flatMap Field.encode

/-- No structure begins here: nothing is left, or the length is zero or goes past the end. -/
def Broken : List UInt8 → Prop
  | [] => True
  | len :: body => len = 0 ∨ body.length < len.toNat

/-- `fields` are the structures of the row before its first broken one. -/
def Reads (bytes : List UInt8) (fields : List Field) : Prop := ∃ rest, bytes = encode fields ++ rest ∧ Broken rest

theorem encode_cons (f : Field) (fields : List Field) : encode (f :: fields) = f.encode ++ encode fields :=
  List.flatMap_cons

theorem Field.toNat_length (f : Field) : (UInt8.ofNat (f.value.length + 1)).toNat = f.value.length + 1 :=
  UInt8.toNat_ofNat_of_lt' (by have := f.fits; simp only [UInt8.size]; omega)

theorem Field.encode_append (f : Field) (rest : List UInt8) :
    f.encode ++ rest = UInt8.ofNat (f.value.length + 1) :: f.type :: (f.value ++ rest) := rfl

/-! ## Every row has one reading -/

/-- What does not begin with a structure is broken. -/
theorem broken_or_field (bytes : List UInt8) : Broken bytes ∨ ∃ f : Field, ∃ rest, bytes = f.encode ++ rest := by
  cases bytes with
  | nil => exact .inl trivial
  | cons len body =>
      by_cases hb : len = 0 ∨ body.length < len.toNat
      · exact .inl hb
      · obtain ⟨hlen, hbody⟩ : len ≠ 0 ∧ len.toNat ≤ body.length := by
          simpa only [not_or, Nat.not_lt] using hb
        have hpos : 0 < len.toNat := Nat.pos_of_ne_zero fun h => hlen (UInt8.toNat_inj.mp h)
        cases body with
        | nil => simp only [List.length_nil] at hbody; omega
        | cons type value =>
            have hlt := len.toNat_lt
            simp only [List.length_cons] at hbody
            have hval : (value.take (len.toNat - 1)).length + 1 = len.toNat := by
              rw [List.length_take]
              omega
            refine .inr ⟨⟨type, value.take (len.toNat - 1), by omega⟩, value.drop (len.toNat - 1), ?_⟩
            rw [Field.encode_append]
            simp only [hval, UInt8.ofNat_toNat, List.take_append_drop]

theorem not_broken_encode (f : Field) (rest : List UInt8) : ¬Broken (f.encode ++ rest) := by
  rw [Field.encode_append]
  rintro (h | h)
  · have hz := congrArg UInt8.toNat h
    rw [f.toNat_length] at hz
    exact absurd hz (Nat.succ_ne_zero _)
  · rw [f.toNat_length] at h
    simp only [List.length_cons, List.length_append] at h
    omega

/-- Induction over the structures of a row. -/
theorem row_induction {P : List UInt8 → Prop} (broken : ∀ rest, Broken rest → P rest)
    (field : ∀ (f : Field) rest, P rest → P (f.encode ++ rest)) (bytes : List UInt8) : P bytes := by
  induction hn : bytes.length using Nat.strongRecOn generalizing bytes with
  | _ n ih =>
      rcases broken_or_field bytes with hb | ⟨f, rest, rfl⟩
      · exact broken _ hb
      · refine field f rest (ih rest.length ?_ rest rfl)
        rw [← hn, Field.encode_append]
        simp only [List.length_cons, List.length_append]
        omega

theorem Reads.nil {rest : List UInt8} (hb : Broken rest) : Reads rest [] := ⟨rest, rfl, hb⟩

theorem Reads.cons {rest : List UInt8} {fields : List Field} (f : Field) (h : Reads rest fields) :
    Reads (f.encode ++ rest) (f :: fields) := by
  obtain ⟨last, rfl, hb⟩ := h
  exact ⟨last, by rw [encode_cons, List.append_assoc], hb⟩

theorem reads_exists (bytes : List UInt8) : ∃ fields, Reads bytes fields := by
  induction bytes using row_induction with
  | broken rest hb => exact ⟨[], .nil hb⟩
  | field f rest ih =>
      obtain ⟨fields, h⟩ := ih
      exact ⟨f :: fields, h.cons f⟩

theorem Field.encode_inj {f g : Field} {rest rest' : List UInt8} (h : f.encode ++ rest = g.encode ++ rest') :
    f = g ∧ rest = rest' := by
  obtain ⟨ftype, fvalue, hf⟩ := f
  obtain ⟨gtype, gvalue, hg⟩ := g
  rw [encode_append, encode_append] at h
  obtain ⟨hlen, htail⟩ := List.cons.inj h
  obtain ⟨rfl, happ⟩ := List.cons.inj htail
  have hl := congrArg UInt8.toNat hlen
  rw [Field.toNat_length ⟨ftype, fvalue, hf⟩, Field.toNat_length ⟨ftype, gvalue, hg⟩] at hl
  obtain ⟨rfl, rfl⟩ := List.append_inj happ (by simpa using hl)
  exact ⟨rfl, rfl⟩

theorem Reads.unique {bytes : List UInt8} {fields fields' : List Field} (h : Reads bytes fields)
    (h' : Reads bytes fields') : fields = fields' := by
  obtain ⟨rest, rfl, hb⟩ := h
  obtain ⟨rest', he, hb'⟩ := h'
  induction fields generalizing fields' with
  | nil =>
      cases fields' with
      | nil => rfl
      | cons f fields' =>
          rw [encode_cons, List.append_assoc] at he
          have hrest : rest = f.encode ++ (encode fields' ++ rest') := he
          exact absurd (hrest ▸ hb) (not_broken_encode f _)
  | cons f fields ih =>
      cases fields' with
      | nil =>
          rw [encode_cons, List.append_assoc] at he
          have hrest : rest' = f.encode ++ (encode fields ++ rest) := he.symm
          exact absurd (hrest ▸ hb') (not_broken_encode f _)
      | cons g fields' =>
          rw [encode_cons, encode_cons, List.append_assoc, List.append_assoc] at he
          obtain ⟨rfl, hrest⟩ := Field.encode_inj he
          rw [ih hrest]

end Ltv
