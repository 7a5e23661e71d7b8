import SampleHarvest.Text.Decimal

/-!
# Fractions in formats

A fraction is written with a fixed number of decimals, with an exponent, or in the shorter of the
two ways. The digits are those of the exact value, rounded to the nearest and to an even last digit
in the middle.
-/

namespace SampleHarvest

namespace Shell

/-- A finite fraction without its sign: a whole number over another one. -/
structure Ratio where
  upper : Nat
  lower : Nat
  deriving DecidableEq, Repr

/-- What a floating-point number is. -/
inductive FloatKind where
  | finite (isNegative : Bool) (ratio : Ratio)
  | infinite (isNegative : Bool)
  | notNumber
  deriving DecidableEq, Repr

/-- What a floating-point number is. -/
def FloatKind.of (x : Float) : FloatKind :=
  let bits := x.toBits.toNat
  let isNegative := bits / Nat.pow 2 63 = 1
  let exponent := bits / Nat.pow 2 52 % 2048
  let fraction := bits % Nat.pow 2 52
  if exponent = 2047 then
    if fraction = 0 then .infinite isNegative else .notNumber
  else
    let digits := if exponent = 0 then fraction else fraction + Nat.pow 2 52
    let power := max exponent 1
    if 1075 ≤ power then .finite isNegative ⟨digits * Nat.pow 2 (power - 1075), 1⟩
    else .finite isNegative ⟨digits, Nat.pow 2 (1075 - power)⟩

namespace Ratio

/-- The nearest whole number, an even one in the middle between two. -/
def rounded (ratio : Ratio) : Nat :=
  let q := ratio.upper / ratio.lower
  let r := ratio.upper % ratio.lower
  if ratio.lower < 2 * r ∨ (2 * r = ratio.lower ∧ q % 2 = 1) then q + 1 else q

/-- A fraction times a power of ten. -/
def scaled (ratio : Ratio) (power : Int) : Ratio :=
  match power with
  | .ofNat n => ⟨ratio.upper * Nat.pow 10 n, ratio.lower⟩
  | .negSucc n => ⟨ratio.upper, ratio.lower * Nat.pow 10 (n + 1)⟩

/-- A number with this many decimals, given in units of the last one. -/
def withPoint (decimals : Nat) (n : Nat) : Text :=
  if decimals = 0 then Text.ofNat n
  else
    let digits := Text.zeroPadded (decimals + 1) n
    digits.take (digits.length - decimals) ++ ['.'] ++ digits.drop (digits.length - decimals)

/-- A fraction with this many decimals. -/
def fixed (ratio : Ratio) (decimals : Nat) : Text :=
  withPoint decimals (ratio.scaled decimals).rounded

/-- The power of ten of the first digit. -/
def magnitude (ratio : Ratio) : Int :=
  if ratio.upper = 0 then 0
  else
    let guess : Int :=
      ((Text.ofNat ratio.upper).length : Int) - (Text.ofNat ratio.lower).length
    if ratio.upper * Nat.pow 10 (-guess).toNat < ratio.lower * Nat.pow 10 guess.toNat then guess - 1
    else guess

/-- The digits of a fraction, one before the point and this many behind, with the power of ten. -/
def digits (ratio : Ratio) (decimals : Nat) : Nat × Int :=
  let magnitude := ratio.magnitude
  let n := (ratio.scaled (decimals - magnitude)).rounded
  if n = Nat.pow 10 (decimals + 1) then (Nat.pow 10 decimals, magnitude + 1) else (n, magnitude)

/-- A power of ten behind a letter, with a sign and two digits at least. -/
def exponentText (letter : Char) (power : Int) : Text :=
  letter :: (if power < 0 then '-' else '+') :: Text.zeroPadded 2 power.natAbs

/-- A fraction with this many decimals and an exponent. -/
def scientific (ratio : Ratio) (letter : Char) (decimals : Nat) : Text :=
  let (n, power) := ratio.digits decimals
  withPoint decimals n ++ exponentText letter power

/-- A text without the zeros at the end of its decimals. -/
def withoutZeros (t : Text) : Text :=
  if t.all (· != '.') then t
  else
    match t.reverse.dropWhile (· = '0') with
    | '.' :: front => front.reverse
    | front => front.reverse

/-- A fraction with this many digits, in the shorter way. -/
def general (ratio : Ratio) (letter : Char) (precision : Nat) (keepsZeros : Bool) : Text :=
  let precision := max precision 1
  let (n, power) := ratio.digits (precision - 1)
  let shown (t : Text) : Text := if keepsZeros then t else withoutZeros t
  if -4 ≤ power ∧ power < precision then
    shown (ratio.fixed ((precision : Int) - 1 - power).toNat)
  else shown (withPoint (precision - 1) n) ++ exponentText letter power

end Ratio

/-- A text with its small letters made capitals. -/
def capitals (t : Text) : Text := t.map Char.toUpper

/-- A number without its sign in the way of a conversion letter, and whether it is negative. -/
def floatText (x : Float) (conversion : Char) (precision? : Option Nat) (keepsZeros : Bool) :
    Bool × Text :=
  let precision := precision?.getD 6
  let isCapital := conversion.isUpper
  let cased (t : Text) : Text := if isCapital then capitals t else t
  match FloatKind.of x with
  | .notNumber => (false, cased "nan")
  | .infinite isNegative => (isNegative, cased "inf")
  | .finite isNegative ratio =>
    let letter := if isCapital then 'E' else 'e'
    let kind := conversion.toLower
    let t :=
      if kind = 'f' then ratio.fixed precision
      else if kind = 'e' then ratio.scientific letter precision
      else ratio.general letter precision keepsZeros
    (isNegative, t)

/-- The number that a text begins with, as a decimal number, and what follows it. -/
def leadingFloat? (t : Text) : Option (Float × Text) :=
  let (isNegative, t) : Bool × Text :=
    match t with
    | '-' :: t => (true, t)
    | '+' :: t => (false, t)
    | t => (false, t)
  let whole := t.takeWhile Char.isDigit
  let t := t.drop whole.length
  let (decimals, t) : Text × Text :=
    match t with
    | '.' :: rest =>
      let run := rest.takeWhile Char.isDigit
      if run.isEmpty ∧ whole.isEmpty then ([], t) else (run, rest.drop run.length)
    | t => ([], t)
  if whole.isEmpty ∧ decimals.isEmpty then none
  else
    let (power, t) : Int × Text :=
      match t with
      | e :: rest =>
        if e = 'e' ∨ e = 'E' then
          let (isSmall, digits) : Bool × Text :=
            match rest with
            | '-' :: rest => (true, rest)
            | '+' :: rest => (false, rest)
            | rest => (false, rest)
          let run := digits.takeWhile Char.isDigit
          if run.isEmpty then (0, t)
          else
            let n : Int := min (Text.digitsValue 0 run) 100000
            (if isSmall then -n else n, digits.drop run.length)
        else (0, t)
      | t => (0, t)
    let n := Text.digitsValue 0 (whole ++ decimals)
    let shift : Int := power - decimals.length
    let x := if n = 0 then 0 else Float.ofScientific n (shift < 0) shift.natAbs
    some (if isNegative then -x else x, t)

end Shell

end SampleHarvest
