import BleAtHost.Common
import BleAtHost.Lib.Tagged

/-!
# Formatted text

What `%u` and `%d` print, and how long it gets.
-/

namespace BleAtHost

/-! ## Digits -/

theorem isDigit_bounds {c : Char} (h : c.isDigit = true) : 48 ≤ c.toNat ∧ c.toNat ≤ 57 := Char.isDigit_iff_toNat.mp h

theorem isDigit_toDigits {n : Nat} {c : Char} (h : c ∈ Nat.toDigits 10 n) : c.isDigit = true :=
  Nat.isDigit_of_mem_toDigits (by decide) (by decide) h

theorem toNat_digit {c : Char} (h : c.isDigit = true) : (UInt8.ofNat c.toNat).toNat = c.toNat := by
  have hbounds := isDigit_bounds h
  rw [UInt8.toNat_ofNat']
  omega

theorem isDigit_of_mem_decimal {n : Nat} {ch : Byte} (h : ch ∈ decimal n) : isDigit ch = true := by
  obtain ⟨c, hmem, rfl⟩ := List.mem_map.mp h
  have hdigit := isDigit_toDigits hmem
  have hbounds := isDigit_bounds hdigit
  simp only [isDigit, Bool.and_eq_true, decide_eq_true_eq, UInt8.le_iff_toNat_le, toNat_digit hdigit]
  exact hbounds

/-- The digits can be read back. -/
theorem map_decimal (n : Nat) : (decimal n).map (fun ch => Char.ofNat ch.toNat) = Nat.toDigits 10 n := by
  have hback : ∀ c ∈ Nat.toDigits 10 n, Char.ofNat (UInt8.ofNat c.toNat).toNat = c := by
    intro c hc
    rw [toNat_digit (isDigit_toDigits hc), Char.ofNat_toNat]
  rw [decimal, List.map_map]
  exact (List.map_congr_left hback).trans (List.map_id _)

theorem decimal_injective : Function.Injective decimal := by
  intro n m h
  have hvalue := congrArg (fun text => Nat.ofDigitChars 10 (text.map fun ch : Byte => Char.ofNat ch.toNat) 0) h
  simpa only [map_decimal, Nat.ofDigitChars_ten_toDigits] using hvalue

/-! ## Lengths -/

theorem length_decimal {n k : Nat} (hk : 0 < k) (h : n < 10 ^ k) : (decimal n).length ≤ k := by
  rw [decimal, List.length_map]
  exact (Nat.length_toDigits_le_iff (by decide) hk).mpr h

theorem length_signedDecimal {n : Int} (h : n.natAbs < 256) : (signedDecimal n).length ≤ 4 := by
  have hlen : (decimal n.natAbs).length ≤ 3 := length_decimal (by decide) (by omega)
  rw [signedDecimal]
  split
  · rw [List.length_cons]
    omega
  · omega

/-! ## Buffers -/

section
variable {size : Nat} {format : List (Tagged.Field Byte)} {values : List Text}

theorem length_line_lt (hsize : Tagged.width format < size) (h : Tagged.Keeps format values) :
    (Tagged.line format values).length < size := Nat.lt_of_le_of_lt (Tagged.length_line_le h) hsize

/-- A buffer that holds the longest line cuts no line. -/
theorem snprintk_line (hsize : Tagged.width format < size) (h : Tagged.Keeps format values) :
    snprintk size (Tagged.line format values) = Tagged.line format values :=
  List.take_of_length_le (Nat.le_sub_one_of_lt (length_line_lt hsize h))

end

end BleAtHost
