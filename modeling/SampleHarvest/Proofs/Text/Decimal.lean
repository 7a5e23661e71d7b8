import Mathlib.Data.Nat.Digits.Lemmas
import SampleHarvest.Text.Decimal

/-!
# Reading numerals back

The digits of a number stand for that number, so different numbers have different numerals.
-/

namespace SampleHarvest

namespace Text

theorem isDigit_of_mem_ofNat {n : Nat} {c : Char} (h : c ∈ ofNat n) : c.isDigit :=
  Nat.isDigit_of_mem_toDigits (by decide) (by decide) h

theorem toNat?_ofNat (n : Nat) : toNat? (ofNat n) = some n := by
  have hdigits : (ofNat n).all Char.isDigit :=
    List.all_eq_true.mpr fun c hc => isDigit_of_mem_ofNat hc
  have hne : ofNat n ≠ [] := Nat.toDigits_ne_nil
  have hvalue : digitsValue 0 (ofNat n) = n := Nat.ofDigitChars_ten_toDigits
  simp [toNat?, hdigits, hne, hvalue]

theorem ofNat_injective : Function.Injective ofNat := by
  intro m n h
  have hread : some m = some n := by rw [← toNat?_ofNat m, h, toNat?_ofNat]
  exact Option.some.inj hread

theorem eq_zero_of_ofNat {n : Nat} {t : Text} (h : ofNat n = '0' :: t) : n = 0 := by
  induction n using Nat.strongRecOn generalizing t with
  | ind n ih =>
      rcases Nat.lt_or_ge n 10 with hless | hmore
      · have hdigits : ∀ m < 10, Nat.digitChar m = '0' → m = 0 := by decide
        rw [ofNat, Nat.toDigits_of_lt_base hless] at h
        exact hdigits n hless (List.head_eq_of_cons_eq h)
      · rw [ofNat, Nat.toDigits_of_base_le (by decide) hmore] at h
        obtain ⟨c, u, hfront⟩ := List.exists_cons_of_ne_nil (Nat.toDigits_ne_nil (b := 10) (n := n / 10))
        rw [hfront, List.cons_append] at h
        have hzero := ih (n / 10) (by omega) (hfront.trans (by rw [List.head_eq_of_cons_eq h]))
        omega

/-- No digit is a minus sign. -/
theorem ofNat_ne_minus (m : Nat) (t : Text) : ofNat m ≠ '-' :: t := by
  intro h
  have hdigit : '-'.isDigit = true := isDigit_of_mem_ofNat (h ▸ List.mem_cons_self)
  exact absurd hdigit (by decide)

theorem ofInt_injective : Function.Injective ofInt := by
  intro a b h
  match a, b with
  | .ofNat m, .ofNat n => exact congrArg Int.ofNat (ofNat_injective h)
  | .ofNat m, .negSucc n => exact absurd h (ofNat_ne_minus m _)
  | .negSucc m, .ofNat n => exact absurd h.symm (ofNat_ne_minus n _)
  | .negSucc m, .negSucc n =>
      have hdigits : ofNat (m + 1) = ofNat (n + 1) := (List.cons.inj h).2
      exact congrArg Int.negSucc (Nat.succ.inj (ofNat_injective hdigits))

end Text

end SampleHarvest
