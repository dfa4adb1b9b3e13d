import Mathlib.Data.List.Basic

/-!
# Decimal digits

A number is determined by its digits, which are digits and nothing else.
-/

namespace Digits

theorem notMem_toDigits {c : Char} (hc : c.isDigit = false) (n : ℕ) : c ∉ Nat.toDigits 10 n := by
  intro h
  have hd := Nat.isDigit_of_mem_toDigits (by decide) (by decide) h
  rw [hc] at hd
  cases hd

theorem toDigits_injective : Function.Injective (Nat.toDigits 10) := by
  intro a b h
  have hd : ∀ n, Nat.ofDigitChars 10 (Nat.toDigits 10 n) 0 = n := fun n =>
    Nat.ofDigitChars_toDigits (by decide) (by decide)
  calc a = Nat.ofDigitChars 10 (Nat.toDigits 10 a) 0 := (hd a).symm
    _ = Nat.ofDigitChars 10 (Nat.toDigits 10 b) 0 := congrArg (Nat.ofDigitChars 10 · 0) h
    _ = b := hd b

end Digits
