import SampleHarvest.Shell.Arithmetic
import SampleHarvest.Shell.Fraction

/-!
# Formats

A format is a text with places where arguments are put in. Each place says how its argument is
shown: as a text, as a character, or as a number in one of several ways, filled up to a width.

A backslash begins an escape, in a format and in some texts.
-/

namespace SampleHarvest

namespace Shell

/-- The octal number at the front of a text, of at most this many digits, and the rest. -/
def octal? (most : Nat) (t : Text) : Option (Char × Text) :=
  let run := (t.take most).takeWhile fun c => '0' ≤ c && c ≤ '7'
  if run.isEmpty then none
  else
    let n := run.foldl (fun n c => 8 * n + (c.toNat - 48)) 0
    some (Char.ofNat (n % 256), t.drop run.length)

/-- The character that a letter behind a backslash stands for. -/
def escaped? (c : Char) : Option Char :=
  match c with
  | 'a' => some '\x07'
  | 'b' => some '\x08'
  | 'e' => some '\x1b'
  | 'f' => some '\x0c'
  | 'n' => some '\n'
  | 'r' => some '\r'
  | 't' => some '\t'
  | 'v' => some '\x0b'
  | '\\' => some '\\'
  | _ => none

inductive EscapeStyle where
  /-- As in a format: an octal number has three digits. -/
  | format
  /-- As in a text to be shown: an octal number has a zero in front, and a letter ends the text. -/
  | shown
  deriving DecidableEq, Repr

/-- The text for which a text with escapes stands, of which at most this many characters are read,
with whether an escape ended it. -/
def unescape (style : EscapeStyle) : (most : Nat) → Text → Text × Bool
  | 0, _ => ([], false)
  | _, [] => ([], false)
  | _, ['\\'] => (['\\'], false)
  | most + 1, '\\' :: c :: t =>
    let add (front : Text) (rest : Text) : Text × Bool :=
      let (others, isCut) := unescape style most rest
      (front ++ others, isCut)
    if style = .shown ∧ c = 'c' then ([], true)
    else if style = .shown ∧ c = '0' then
      match octal? 3 t with
      | some (value, rest) => add [value] rest
      | none => add ['\x00'] t
    else if style = .format ∧ c = '\x22' then add [c] t
    else
      match octal? 3 (c :: t), escaped? c with
      | some (value, rest), _ => add [value] rest
      | none, some value => add [value] t
      | none, none => add ['\\', c] t
  | most + 1, c :: t =>
    let (others, isCut) := unescape style most t
    (c :: others, isCut)

/-- How an argument is shown. -/
structure Specifier where
  flags : Text := []
  width : Nat := 0
  precision? : Option Nat := none
  conversion : Char
  deriving DecidableEq, Repr

namespace Specifier

/-- Whether a sign stands in front. -/
def has (specifier : Specifier) (flag : Char) : Bool := specifier.flags.any (· == flag)

/-- A text filled up to the width, with blanks. -/
def pad (specifier : Specifier) (t : Text) : Text :=
  let blanks := List.replicate (specifier.width - t.length) ' '
  if specifier.has '-' then t ++ blanks else blanks ++ t

def sign (specifier : Specifier) (isNegative : Bool) : Text :=
  if isNegative then ['-']
  else if specifier.has '+' then ['+']
  else if specifier.has ' ' then [' ']
  else []

/-- A number with its sign, filled up to the width, with zeros if it is to have them. -/
def padNumber (specifier : Specifier) (hasZeros : Bool) (sign digits : Text) : Text :=
  if specifier.has '0' ∧ !specifier.has '-' ∧ hasZeros then
    sign ++ List.replicate (specifier.width - sign.length - digits.length) '0' ++ digits
  else specifier.pad (sign ++ digits)

def showText (specifier : Specifier) (t : Text) : Text :=
  specifier.pad (specifier.precision?.elim t t.take)

/-- The digits of a number with at least as many as the precision says. -/
def digits (specifier : Specifier) (base n : Nat) : Text :=
  let shown : Text := Nat.toDigits base n
  match specifier.precision? with
  | some 0 => if n = 0 then [] else shown
  | some precision => List.replicate (precision - shown.length) '0' ++ shown
  | none => shown

/-- A whole number in the way of a specifier. -/
def showInteger (specifier : Specifier) (n : Int) : Text :=
  let hasZeros := specifier.precision?.isNone
  let bits := Arithmetic.bits n
  let lead (t : Text) : Text := if specifier.has '#' ∧ bits ≠ 0 then t else []
  match specifier.conversion with
  | 'u' => specifier.padNumber hasZeros [] (specifier.digits 10 bits)
  | 'o' => specifier.padNumber hasZeros [] (lead ['0'] ++ specifier.digits 8 bits)
  | 'x' => specifier.padNumber hasZeros (lead ['0', 'x']) (specifier.digits 16 bits)
  | 'X' => specifier.padNumber hasZeros (lead ['0', 'X']) (capitals (specifier.digits 16 bits))
  | _ => specifier.padNumber hasZeros (specifier.sign (n < 0)) (specifier.digits 10 n.natAbs)

/-- A fraction in the way of a specifier. -/
def showFloat (specifier : Specifier) (x : Float) : Text :=
  let (isNegative, t) :=
    floatText x specifier.conversion specifier.precision? (specifier.has '#')
  specifier.padNumber (t.head?.any Char.isDigit) (specifier.sign isNegative) t

end Specifier

inductive FormatNumber where
  | absent
  | given (n : Nat)
  | argument
  deriving DecidableEq, Repr

inductive FormatPiece where
  | text (t : Text)
  | place (flags : Text) (width precision : FormatNumber) (conversion : Char) (written : Text)
  | unfinished (written : Text)
  deriving DecidableEq, Repr

/-- The number at the front of a text in a specifier. -/
def formatNumber : Text → FormatNumber × Text
  | '*' :: t => (.argument, t)
  | t =>
    let run := t.takeWhile Char.isDigit
    (if run.isEmpty then .absent else .given (Text.digitsValue 0 run), t.drop run.length)

/-- The pieces of a format, of which at most this many characters are read. -/
def formatPieces : (most : Nat) → Text → List FormatPiece
  | 0, _ => []
  | _, [] => []
  | most + 1, '%' :: '%' :: t => .text ['%'] :: formatPieces most t
  | most + 1, '%' :: start =>
    let flags := start.takeWhile fun c => c == '-' || c == '+' || c == ' ' || c == '0' || c == '#'
    let (width, t) := formatNumber (start.drop flags.length)
    let (precision, t) : FormatNumber × Text :=
      match t with
      | '.' :: t =>
        let (precision, t) := formatNumber t
        (if precision = .absent then .given 0 else precision, t)
      | t => (.absent, t)
    match t with
    | [] => [.unfinished ('%' :: start)]
    | c :: t =>
      let written := '%' :: start.take (start.length - t.length)
      .place flags width precision c written :: formatPieces most t
  | most + 1, c :: t =>
    let run := c :: t.takeWhile (· ≠ '%')
    .text run :: formatPieces most (t.drop (run.length - 1))

/-- How an argument for a number can be wrong. -/
inductive NumberDefect where
  | notNumber
  | trailing
  | tooLarge
  deriving DecidableEq, Repr

/-- What is said about an argument that is wrong. -/
def NumberDefect.message : NumberDefect → Text
  | notNumber => "expected numeric value"
  | trailing => "not completely converted"
  | tooLarge => "Numerical result out of range"

/-- The defect of an argument of which this is left behind its number. -/
def NumberDefect.ofRest? (hasDigits : Bool) (rest : Text) : Option NumberDefect :=
  if rest.isEmpty then none else if hasDigits then some .trailing else some .notNumber

/-- The whole number that an argument is, and what is wrong with it. A quote stands before a
character whose number is meant. -/
def argumentInteger (isSigned : Bool) (t : Text) : Int × Option NumberDefect :=
  match t with
  | '\x27' :: rest => (((rest.headD '\x00').toNat : Int), none)
  | '\x22' :: rest => (((rest.headD '\x00').toNat : Int), none)
  | t =>
    let start := t.dropWhile Text.isRawBlank
    let (isNegative, digits) : Bool × Text :=
      match start with
      | '-' :: t => (true, t)
      | '+' :: t => (false, t)
      | t => (false, t)
    if !digits.head?.any Char.isDigit then (0, NumberDefect.ofRest? false t)
    else
      let (n, rest) := Arithmetic.leadingNumber digits
      let value : Int := if isNegative then -(n : Int) else n
      let most : Int := if isSigned then Arithmetic.maxNumber else 18446744073709551615
      let least : Int := if isSigned then Arithmetic.minNumber else -most
      if most < value then (most, some .tooLarge)
      else if value < least then (if isSigned then least else most, some .tooLarge)
      else (value, NumberDefect.ofRest? true rest)

/-- The fraction that an argument is, and what is wrong with it. -/
def argumentFloat (t : Text) : Float × Option NumberDefect :=
  match t with
  | '\x27' :: rest => (Float.ofNat (rest.headD '\x00').toNat, none)
  | '\x22' :: rest => (Float.ofNat (rest.headD '\x00').toNat, none)
  | t =>
    let start := t.dropWhile Text.isRawBlank
    let name := (Text.lower start).dropWhile fun c => c == '+' || c == '-'
    let isNegative := start.head? == some '-'
    if name = "inf" ∨ name = "infinity" then
      (if isNegative then -1.0 / 0.0 else 1.0 / 0.0, none)
    else if name = "nan" then (0.0 / 0.0, none)
    else
      match leadingFloat? start with
      | some (x, rest) =>
        match FloatKind.of x with
        | .infinite _ => (x, some .tooLarge)
        | _ => (x, NumberDefect.ofRest? true rest)
      | none => (0.0, NumberDefect.ofRest? false t)

end Shell

end SampleHarvest
