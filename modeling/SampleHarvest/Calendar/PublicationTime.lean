import SampleHarvest.Calendar.Instant

/-!
# Publication times

A publication time is given as an RFC 3339 date and time with an offset, or as a plain date, which
means midnight in universal time. Blanks around it do not count.

Each reader takes what it needs from the front of a text and hands on the rest. Numbers are read
with a fixed number of digits in the first form; in the second a month or a day may have one digit,
blanks may stand before a number, and a year with a sign may have any number of digits.
-/

namespace SampleHarvest

namespace PublicationTime

/-- A reader takes a value from the front of a text. -/
abbrev Reader (α : Type) := Text → Option (α × Text)

def character (c : Char) : Reader Unit
  | [] => none
  | d :: t => if d = c then some ((), t) else none

/-- Takes between `least` and `most` digits, as many as there are. -/
def digits (least most : Nat) : Reader Nat := fun t =>
  let run := (t.take most).takeWhile Char.isDigit
  if run.length < least then none else some (Text.digitsValue 0 run, t.drop run.length)

/-- The minus signs that an offset may have. -/
def isMinus (c : Char) : Bool := c == '-' || c.toNat == 0x2212

/-- Takes an offset from universal time, in seconds. -/
def offset : Reader Int
  | [] => none
  | c :: t => do
    if c = 'Z' ∨ c = 'z' then return (0, t)
    guard (c = '+' ∨ isMinus c)
    let (hours, t) ← digits 2 2 t
    let (_, t) ← character ':' t
    let (minutes, t) ← digits 2 2 t
    guard (hours ≤ 23 ∧ minutes ≤ 59)
    let size : Int := hours * 3600 + minutes * 60
    return (if c = '+' then size else -size, t)

/-- Takes an optional fraction of a second, in nanoseconds. Decimals after the ninth are passed
over. -/
def fraction : Reader Nat
  | '.' :: t =>
    let run := t.takeWhile Char.isDigit
    if run.isEmpty then none
    else
      let kept := run.take 9
      some (Text.digitsValue 0 kept * Nat.pow 10 (9 - kept.length), t.drop run.length)
  | t => some (0, t)

/-- A date and time of day with an offset. -/
def parseTimestamp? (t : Text) : Option Instant := do
  let (year, t) ← digits 4 4 t
  let (_, t) ← character '-' t
  let (month, t) ← digits 2 2 t
  let (_, t) ← character '-' t
  let (day, t) ← digits 2 2 t
  let date : Date := ⟨year, month, day⟩
  let (_, t) ← character 'T' t <|> character 't' t <|> character ' ' t
  let (hour, t) ← digits 2 2 t
  let (_, t) ← character ':' t
  let (minute, t) ← digits 2 2 t
  let (_, t) ← character ':' t
  let (second, t) ← digits 2 2 t
  let (nanos, t) ← fraction t
  let (shift, t) ← offset t
  guard (t = [] ∧ date.isValid ∧ hour ≤ 23 ∧ minute ≤ 59 ∧ second ≤ 60)
  let leap := if second = 60 then 1 else 0
  let time : Int := hour * 3600 + minute * 60 + (second - leap : Nat)
  return ⟨date.dayNumber * 86400 + time - shift, nanos + leap * 1000000000⟩

/-- Takes a year, with any number of digits after a sign and at most four without one. -/
def signedYear (t : Text) : Option (Int × Text) :=
  match t.trimStart with
  | '-' :: t => (digits 1 t.length t).map fun (n, t) => (-(n : Int), t)
  | '+' :: t => (digits 1 t.length t).map fun (n, t) => ((n : Int), t)
  | t => (digits 1 4 t).map fun (n, t) => ((n : Int), t)

/-- A plain date, meaning its midnight. -/
def parseDate? (t : Text) : Option Instant := do
  let (year, t) ← signedYear t
  let (_, t) ← character '-' t
  let (month, t) ← digits 1 2 t.trimStart
  let (_, t) ← character '-' t
  let (day, t) ← digits 1 2 t.trimStart
  let date : Date := ⟨year, month, day⟩
  guard (t = [] ∧ date.isValid)
  return ⟨date.dayNumber * 86400, 0⟩

/-- The publication time that a text gives. -/
def parse? (t : Text) : Option Instant := parseTimestamp? t.trim <|> parseDate? t.trim

/-- What is said about a text that gives no publication time. -/
def invalidMessage (t : Text) : Text :=
  "invalid --published-at '" ++ t.trim ++ "': expected RFC 3339 or YYYY-MM-DD"

end PublicationTime

end SampleHarvest
