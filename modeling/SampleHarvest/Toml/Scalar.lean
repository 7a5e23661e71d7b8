import SampleHarvest.Calendar.Date
import SampleHarvest.Toml.Binary
import SampleHarvest.Toml.Quoted
import SampleHarvest.Toml.Value

/-!
# Plain scalars

A truth value, a number or a point in time stands without quotes. What begins like a number is read
as a point in time first, then as a fraction, and then as a whole number; the first of them that
goes on far enough decides.

Whole numbers are those of a signed word of 64 bits. Digits may be grouped by single underscores,
and a decimal number has no leading zeros.
-/

namespace SampleHarvest

namespace Toml

/-- The part of a text that a reader has taken. -/
def taken (t rest : Text) : Text := t.take (t.length - rest.length)

def digits (count : Nat) : Reader Nat := fun t =>
  let run := (t.take count).takeWhile Char.isDigit
  if run.length < count then .error (.here t) else .ok (Text.digitsValue 0 run, t.drop count)

/-- The reason why a number is not the number of anything. -/
def outOfRange : Text := "value is out of range"

/-- Reads a number of two digits within these bounds. -/
def twoDigits (least most : Nat) : Reader Nat := fun t => do
  let (n, rest) ← digits 2 t
  if least ≤ n ∧ n ≤ most then return (n, rest) else throw (.because t outOfRange)

def date : Reader Unit := fun t => do
  let (year, t) ← digits 4 t
  let (_, t) ← exactly ['-'] t
  let (month, t) ← final (twoDigits 1 12) t
  let (_, t) ← final (exactly ['-']) t
  let (day, rest) ← final (twoDigits 1 31) t
  if Date.daysInMonth year month < day then throw (Fault.because t outOfRange).final
  return ((), rest)

def secondDecimals : Reader Unit := fun t => do
  let (_, rest) ← exactly ['.'] t
  let run := rest.takeWhile Char.isDigit
  if run.isEmpty then throw (.here rest)
  return ((), rest.drop run.length)

def timeOfDay : Reader Unit := fun t => do
  let (_, t) ← twoDigits 0 23 t
  let (_, t) ← exactly [':'] t
  let (_, t) ← final (twoDigits 0 59) t
  let (_, t) ← final (exactly [':']) t
  let (_, t) ← final (twoDigits 0 60) t
  let (_, t) ← optional secondDecimals t
  return ((), t)

def offset : Reader Unit := inside "time offset" fun t => do
  let (sign, t) ← one (fun c => c == 'Z' || c == 'z' || c == '+' || c == '-') t
  if sign = 'Z' ∨ sign = 'z' then return ((), t)
  let (_, t) ← final (twoDigits 0 23) t
  let (_, t) ← final (exactly [':']) t
  let (_, t) ← final (twoDigits 0 59) t
  return ((), t)

/-- Reads a time of day behind a date. -/
def laterTime : Reader Unit := fun t => do
  let (_, t) ← one (fun c => c == 'T' || c == 't' || c == ' ') t
  let (_, t) ← timeOfDay t
  let (_, t) ← optional offset t
  return ((), t)

def dateAndTime : Reader Unit := inside "date-time" fun t => do
  let (_, t) ← date t
  let (_, t) ← optional laterTime t
  return ((), t)

/-- Reads a date, a time of day or both. -/
def timeValue : Reader Toml := fun t => do
  let (_, rest) ← orElse dateAndTime (inside "time" timeOfDay) t
  return (.time (taken t rest), rest)

/-- Reads the digits behind another digit, grouped by underscores; `most` bounds their number. -/
def moreDigits (isDigit : Char → Bool) : (most : Nat) → Reader Text
  | 0, t => .ok ([], t)
  | _, [] => .ok ([], [])
  | most + 1, c :: t =>
    if isDigit c then do
      let (others, rest) ← moreDigits isDigit most t
      return (c :: others, rest)
    else if c = '_' then do
      let (next, t) ← expecting ["digit"] (final (one isDigit)) t
      let (others, rest) ← moreDigits isDigit most t
      return (next :: others, rest)
    else .ok ([], c :: t)

/-- Reads digits, grouped by underscores or not, without the underscores. -/
def groupedDigits (isDigit : Char → Bool) : Reader Text := fun t => do
  let (first, t) ← one isDigit t
  let (others, t) ← moreDigits isDigit t.length t
  return (first :: others, t)

/-- Reads a sign in front of a number, and says whether it is a minus sign. -/
def sign : Reader Bool := fun t =>
  match t with
  | '+' :: t => .ok (false, t)
  | '-' :: t => .ok (true, t)
  | t => .ok (false, t)

/-- Reads the digits of a decimal number, with a sign or without. -/
def decimal : Reader (Bool × Text) := inside "integer" fun t => do
  let (isNegative, t) ← sign t
  match t with
  | '0' :: t => return ((isNegative, ['0']), t)
  | t =>
    let (digits, t) ← groupedDigits Char.isDigit t
    return ((isNegative, digits), t)

/-- The least whole number. -/
def minInteger : Int := -9223372036854775808

/-- The greatest whole number. -/
def maxInteger : Int := 9223372036854775807

/-- A whole number that begins here, if it is neither too small nor too great. -/
def inRange (start : Text) (n : Int) : Except Fault Int :=
  if n < minInteger then .error (Fault.because start "number too small to fit in target type").final
  else if maxInteger < n then
    .error (Fault.because start "number too large to fit in target type").final
  else .ok n

/-- Reads the whole number behind the mark of its base. -/
def baseNumber (kind : Text) (base : Nat) (start : Text) : Reader Int := fun t => do
  let isDigit (c : Char) : Bool := (hexValue? c).any (· < base)
  let (digits, rest) ← inside (kind ++ " integer") (final (groupedDigits isDigit)) t
  let n : Nat := digits.foldl (fun n c => base * n + (hexValue? c).getD 0) 0
  return (← inRange start n, rest)

def wholeNumber : Reader Int := fun t =>
  match t with
  | '0' :: 'x' :: rest => baseNumber "hexadecimal" 16 t rest
  | '0' :: 'o' :: rest => baseNumber "octal" 8 t rest
  | '0' :: 'b' :: rest => baseNumber "binary" 2 t rest
  | t => do
    let ((isNegative, digits), rest) ← decimal t
    let n : Int := Text.digitsValue 0 digits
    return (← inRange t (if isNegative then -n else n), rest)

/-- Reads an exponent, and says whether it is negative. -/
def exponent : Reader (Bool × Text) := fun t => do
  let (_, t) ← one (fun c => c == 'e' || c == 'E') t
  let (isNegative, t) ← sign t
  let (digits, t) ← final (groupedDigits Char.isDigit) t
  return ((isNegative, digits), t)

/-- Reads decimals behind a point. -/
def decimals : Reader Text := fun t => do
  let (_, t) ← exactly ['.'] t
  expecting ["digit"] (final (groupedDigits Char.isDigit)) t

def pointNumber : Reader (Bool × Magnitude) := fun start => do
  let ((isNegative, whole), t) ← decimal start
  let (decimals?, t) ← optional decimals t
  let (exponent?, t) ← optional exponent t
  if decimals?.isNone ∧ exponent?.isNone then throw (.here t)
  let (isSmall, power) := exponent?.getD (false, [])
  let magnitude :=
    Magnitude.ofDecimal whole (decimals?.getD []) isSmall (Text.digitsValue 0 power)
  if !isNegative ∧ magnitude.isInfinite then throw (Fault.here start).final
  return ((isNegative, magnitude), t)

/-- The text of a number: its sign and its magnitude. -/
def fractionText (isNegative : Bool) (magnitude : Magnitude) : Text :=
  (if isNegative then ['-'] else []) ++
    (if magnitude.isInfinite then ['i', 'n', 'f'] else magnitude.text)

def namedNumber : Reader Toml := fun t =>
  match t.after? "inf", t.after? "nan" with
  | some rest, _ => .ok (.fraction "inf", rest)
  | none, some rest => .ok (.fraction "NaN", rest)
  | none, none => .error (.here t)

def signedNumber : Reader Toml := fun t => do
  let (isNegative, t) ← sign t
  match ← namedNumber t with
  | (.fraction name, rest) =>
    return (.fraction (if isNegative ∧ name = "inf" then '-' :: name else name), rest)
  | other => return other

def fractionValue : Reader Toml :=
  inside "floating-point number" <|
    orElse
      (fun t => do
        let ((isNegative, magnitude), rest) ← pointNumber t
        return (.fraction (fractionText isNegative magnitude), rest))
      signedNumber

/-- Reads what begins like a number. -/
def number : Reader Toml :=
  orElse timeValue <| orElse fractionValue fun t => do
    let (n, rest) ← wholeNumber t
    return (.integer n, rest)

/-- Reads something in whose place a text could have come. -/
def orQuoted (read : Reader α) : Reader α :=
  expecting [mark ['\x22'], mark ['\x27']] (inside "string" read)

def truthValue (name : Text) (value : Bool) : Reader Toml :=
  orQuoted fun t => do
    let (_, rest) ← final (exactly name) t
    return (.boolean value, rest)

/-- Reads a scalar without quotes. -/
def plain : Reader Toml := fun t =>
  match t with
  | [] => .error (.here t)
  | c :: _ =>
    if c.isDigit ∨ c = '+' ∨ c = '-' then number t
    else if c = '_' then
      expecting ["leading digit"]
        (fun t => (wholeNumber t).map fun (n, rest) => (.integer n, rest)) t
    else if c = '.' then expecting ["leading digit"] fractionValue t
    else if c = 't' then truthValue "true" true t
    else if c = 'f' then truthValue "false" false t
    else orQuoted namedNumber t

end Toml

end SampleHarvest
