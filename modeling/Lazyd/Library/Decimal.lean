import Mathlib.Data.Nat.Digits.Defs

/-!
# Numbers in decimal

A number is written in digits, and a text of digits is read as a number.

## Main definitions

* `Decimal.parse` : the number that a text is.

## Main results

* `Decimal.parse_toString` : a number is read back.
-/

namespace Decimal

/-- The number that a text is, if it consists of digits. -/
def parse (input : List Char) : Option ℕ :=
  if input ≠ [] ∧ input.all Char.isDigit then some (Nat.ofDigitChars 10 input 0) else none

theorem toList_toString (n : ℕ) : (toString n).toList = Nat.toDigits 10 n := Nat.toList_repr

theorem isDigit_of_mem_toString {n : ℕ} {c : Char} (hc : c ∈ (toString n).toList) :
    c.isDigit = true := by
  rw [toList_toString] at hc
  exact Nat.isDigit_of_mem_toDigits (by decide) (by decide) hc

theorem notMem_toString {n : ℕ} {c : Char} (hc : c.isDigit = false) :
    c ∉ (toString n).toList := by
  intro hmem
  rw [isDigit_of_mem_toString hmem] at hc
  exact absurd hc (by decide)

theorem toString_ne_nil (n : ℕ) : (toString n).toList ≠ [] := by
  rw [toList_toString]
  exact Nat.toDigits_ne_nil

theorem all_isDigit_toString (n : ℕ) : (toString n).toList.all Char.isDigit = true :=
  List.all_eq_true.mpr fun _ => isDigit_of_mem_toString

theorem ofDigitChars_toString (n : ℕ) : Nat.ofDigitChars 10 (toString n).toList 0 = n := by
  rw [toList_toString]
  exact Nat.ofDigitChars_ten_toDigits

/-- **A number is read back.** -/
theorem parse_toString (n : ℕ) : parse (toString n).toList = some n := by
  rw [parse, if_pos ⟨toString_ne_nil n, all_isDigit_toString n⟩, ofDigitChars_toString]

end Decimal
