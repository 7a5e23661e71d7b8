import SampleHarvest.Text.Decimal

/-!
# Binary fractions

A decimal number is rounded to the nearest number with 53 binary digits, to an even last digit in
the middle between two. A number is written with the fewest decimal digits that are rounded back to
it, and of those with the nearest.

Magnitudes are kept as a whole number times a power of two; all comparisons are between whole
numbers.
-/

namespace SampleHarvest

/-- A whole number times a power of two, of which the exponent is given 1074 too large. -/
structure Magnitude where
  digits : Nat
  exponent : Nat
  deriving DecidableEq, Repr

namespace Magnitude

/-- How many binary digits a magnitude has. -/
def precision : Nat := 53

/-- The exponent of the least magnitude, without its sign. -/
def leastExponent : Nat := 1074

/-- The exponent of a magnitude that is too large. -/
def topExponent : Nat := 2046

/-- A quotient rounded to the nearest whole number, to an even one in the middle between two. -/
def roundedQuotient (a b : Nat) : Nat :=
  let q := a / b
  let r := a % b
  if b < 2 * r ∨ (2 * r = b ∧ q % 2 = 1) then q + 1 else q

/-- How many binary digits a number has. -/
def bitLength (n : Nat) : Nat := if n = 0 then 0 else n.log2 + 1

def ofQuotient (a b : Nat) : Magnitude :=
  let scaled := a * Nat.pow 2 leastExponent
  let exponent := bitLength (scaled / b) - precision
  let digits := roundedQuotient scaled (b * Nat.pow 2 exponent)
  if digits = Nat.pow 2 precision then ⟨Nat.pow 2 (precision - 1), exponent + 1⟩
  else ⟨digits, exponent⟩

/-- Whether a magnitude is too large. -/
def isInfinite (x : Magnitude) : Bool := topExponent ≤ x.exponent

/-- Whether a quotient, taken times the least power of two, is rounded to a magnitude. -/
def rounds (x : Magnitude) (a b : Nat) : Bool :=
  let half := Nat.pow 2 x.exponent * b
  let isLow := x.digits = Nat.pow 2 (precision - 1) ∧ 0 < x.exponent
  let above := (2 * x.digits + 1) * half
  let below := if isLow then (4 * x.digits - 1) * half else (4 * x.digits - 2) * half
  if x.digits % 2 = 0 then below ≤ 4 * a ∧ 2 * a ≤ above else below < 4 * a ∧ 2 * a < above

/-- The number of decimal digits before the point of a magnitude, less that of the zeros behind the
point in front of its first other digit; counted from 400. -/
def decimalPlace (x : Magnitude) : Nat :=
  let value := x.digits * Nat.pow 2 x.exponent * Nat.pow 10 400 / Nat.pow 2 leastExponent
  (Text.ofNat value).length

/-- The whole number of units of this decimal place that is nearest to a magnitude and rounded to
it, if there is one. -/
def onGrid? (x : Magnitude) (place : Nat) : Option Nat :=
  let one := Nat.pow 2 leastExponent
  let value := x.digits * Nat.pow 2 x.exponent * Nat.pow 10 400
  let unit := one * Nat.pow 10 place
  let below := value / unit
  let isFitting (n : Nat) : Bool := x.rounds (n * unit) (Nat.pow 10 400)
  let isNearer := 2 * (value % unit) < unit ∨ (2 * (value % unit) = unit ∧ below % 2 = 0)
  let first := if isNearer then below else below + 1
  let second := if isNearer then below + 1 else below
  if isFitting first then some first else if isFitting second then some second else none

/-- The shortest digits of a magnitude with the decimal place of their last one, counted from 400;
`fewer` more digits than `count` may be tried. -/
def shortest (x : Magnitude) : (fewer : Nat) → (count : Nat) → Nat × Nat
  | 0, _ => (0, 400)
  | fewer + 1, count =>
    let place := x.decimalPlace - count
    match x.onGrid? place with
    | some n => (n, place)
    | none => shortest x fewer (count + 1)

/-- The shortest decimal text of a magnitude, with a point and without an exponent. -/
def text (x : Magnitude) : Text :=
  if x.digits = 0 then "0.0"
  else
    let (n, place) := x.shortest 18 1
    if 400 ≤ place then Text.ofNat (n * Nat.pow 10 (place - 400)) ++ ".0"
    else
      let decimals := 400 - place
      let digits := Text.zeroPadded (decimals + 1) n
      let front := digits.take (digits.length - decimals)
      let back := (digits.drop (digits.length - decimals)).reverse.dropWhile (· = '0')
      front ++ "." ++ (if back.isEmpty then ['0'] else back.reverse)

/-- How far the exponent of a written number counts. -/
def maxWrittenExponent : Nat := 100000

/-- The magnitude nearest to a number that is written with digits before and behind a point and an
exponent. -/
def ofDecimal (whole decimals : Text) (isNegative : Bool) (exponent : Nat) : Magnitude :=
  let n := Text.digitsValue 0 (whole ++ decimals)
  let power := min exponent maxWrittenExponent
  if n = 0 then ⟨0, 0⟩
  else if isNegative then ofQuotient n (Nat.pow 10 (decimals.length + power))
  else ofQuotient (n * Nat.pow 10 power) (Nat.pow 10 decimals.length)

end Magnitude

end SampleHarvest
