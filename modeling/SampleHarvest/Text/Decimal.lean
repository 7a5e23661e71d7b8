import SampleHarvest.Text.Basic

/-!
# Decimal numerals

Numbers are written in base ten without leading zeros, or filled up with zeros to a width. Digits
are the ten ASCII digits.
-/

namespace SampleHarvest

namespace Text

/-- The decimal digits of a natural number. -/
def ofNat (n : Nat) : Text := Nat.toDigits 10 n

/-- A minus sign for a negative number, then the digits. -/
def ofInt : Int → Text
  | .ofNat n => ofNat n
  | .negSucc n => '-' :: ofNat (n + 1)

/-- The digits of a number with zeros in front, at least `width` characters. -/
def zeroPadded (width n : Nat) : Text :=
  let digits := ofNat n
  List.replicate (width - digits.length) '0' ++ digits

def digitValue (c : Char) : Nat := c.toNat - '0'.toNat

/-- The number that a run of digits stands for, after the digits of `acc`. -/
def digitsValue (acc : Nat) (digits : Text) : Nat :=
  digits.foldl (fun n c => 10 * n + digitValue c) acc

/-- The number that a non-empty run of digits stands for, and none for any other text. -/
def toNat? (t : Text) : Option Nat :=
  if t ≠ [] ∧ t.all Char.isDigit then some (digitsValue 0 t) else none

end Text

end SampleHarvest
