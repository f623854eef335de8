import Mathlib.Data.List.Forall2

/-!
# Lines of tagged fields

A format is a list of fields. A field is a label and room for a value, which follows the label in the line.
-/

namespace Tagged

variable {α : Type*}

structure Field (α : Type*) where
  label : List α
  width : Nat

def line : List (Field α) → List (List α) → List α
  | field :: format, value :: values => field.label ++ (value ++ line format values)
  | _, _ => []

/-- The length of the longest line. -/
def width : List (Field α) → Nat
  | [] => 0
  | field :: format => field.label.length + (field.width + width format)

/-- Each value keeps to the room of its field. -/
abbrev Keeps (format : List (Field α)) (values : List (List α)) : Prop :=
  List.Forall₂ (fun field value => value.length ≤ field.width) format values

variable {format : List (Field α)} {values values' : List (List α)}

theorem length_line_le (h : Keeps format values) : (line format values).length ≤ width format := by
  induction h with
  | nil => exact Nat.le_refl _
  | cons hvalue _ ih =>
      simp only [line, width, List.length_append]
      omega

/-! ## Reading a line back -/

/-- Each label begins with a symbol that stands in no value. -/
def Delimited (p : α → Bool) (format : List (Field α)) : Prop :=
  ∀ field ∈ format, ∃ ch rest, field.label = ch :: rest ∧ p ch = false

variable {p : α → Bool}

theorem Delimited.tail (h : Delimited p format) : Delimited p format.tail :=
  fun field hm => h field (List.mem_of_mem_tail hm)

/-- The next label ends a value. -/
theorem takeWhile_line (h : Delimited p format) : (line format values).takeWhile p = [] := by
  cases format with
  | nil => rfl
  | cons field format =>
      cases values with
      | nil => rfl
      | cons value values =>
          obtain ⟨ch, rest, hlabel, hch⟩ := h field List.mem_cons_self
          simp [line, hlabel, hch]

/-- A value ends at the same place in equal lines. -/
theorem append_line_inj {value value' : List α} (h : Delimited p format) (hp : ∀ ch ∈ value, p ch)
    (hp' : ∀ ch ∈ value', p ch) (heq : value ++ line format values = value' ++ line format values') :
    value = value' ∧ line format values = line format values' := by
  have hvalue : value = value' := by
    have htake := congrArg (List.takeWhile p) heq
    rwa [List.takeWhile_append_of_pos hp, List.takeWhile_append_of_pos hp', takeWhile_line h, takeWhile_line h,
      List.append_nil, List.append_nil] at htake
  subst hvalue
  exact ⟨rfl, List.append_cancel_left heq⟩

/-- The line determines its values. The first label may be anything. -/
theorem line_injective (h : Delimited p format.tail) (hlen : values.length = format.length)
    (hlen' : values'.length = format.length) (hp : ∀ value ∈ values, ∀ ch ∈ value, p ch)
    (hp' : ∀ value ∈ values', ∀ ch ∈ value, p ch) (heq : line format values = line format values') :
    values = values' := by
  induction format generalizing values values' with
  | nil => rw [List.length_eq_zero_iff.mp hlen, List.length_eq_zero_iff.mp hlen']
  | cons field format ih =>
      cases values with
      | nil => cases hlen
      | cons value values =>
          cases values' with
          | nil => cases hlen'
          | cons value' values' =>
              have hbehind : value ++ line format values = value' ++ line format values' := List.append_cancel_left heq
              obtain ⟨rfl, hrest⟩ := append_line_inj h (hp value List.mem_cons_self) (hp' value' List.mem_cons_self)
                hbehind
              have hvalues : values = values' :=
                ih (Delimited.tail h) (Nat.succ.inj hlen) (Nat.succ.inj hlen')
                  (fun v hv => hp v (List.mem_cons_of_mem _ hv)) (fun v hv => hp' v (List.mem_cons_of_mem _ hv)) hrest
              rw [hvalues]

end Tagged
