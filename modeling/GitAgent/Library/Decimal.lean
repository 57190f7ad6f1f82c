import Mathlib.Data.Int.Notation
import Mathlib.Data.List.Basic

/-!
# Decimal numbers

The characters that a number is printed as.
-/

namespace Decimal

theorem isDigit_of_mem {n : ℕ} {c : Char} (h : c ∈ Nat.toDigits 10 n) :
  c.isDigit = true
  := Nat.isDigit_of_mem_toDigits (by decide) (by decide) h

/-- A character that is no digit is not in a number. -/
theorem not_mem {n : ℕ} {c : Char} (hc : c.isDigit = false) :
  c ∉ Nat.toDigits 10 n
  := by
  intro h
  rw [isDigit_of_mem h] at hc
  contradiction

theorem toList_toString (n : ℕ) :
  (toString n).toList = Nat.toDigits 10 n
  := by rw [Nat.toString_eq_repr, Nat.toList_repr]

theorem toList_toString_ofNat (n : ℕ) :
  (toString (Int.ofNat n)).toList = Nat.toDigits 10 n
  := toList_toString n

/-- A number below zero is printed with its sign. -/
theorem toList_toString_negSucc (n : ℕ) :
  (toString (Int.negSucc n)).toList = '-' :: Nat.toDigits 10 (n + 1)
  := by
  change ("-" ++ (n + 1).repr).toList = _
  rw [String.toList_append, Nat.toList_repr]
  rfl

theorem toString_ne_empty {n : ℤ} :
  toString n ≠ ""
  := by
  intro hempty
  have hempty := congrArg String.toList hempty
  cases n with
  | ofNat n =>
      rw [toList_toString_ofNat] at hempty
      exact Nat.toDigits_ne_nil hempty
  | negSucc n =>
      rw [toList_toString_negSucc] at hempty
      contradiction

end Decimal
