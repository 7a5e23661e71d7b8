import SampleHarvest.Text.Decimal

/-!
# Dates

Dates of the proleptic Gregorian calendar, with a year zero and negative years before it. Days are
counted from 1 January 1970; the count and the date are computed from each other through the
400-year cycle, in which years begin on 1 March so that a leap day comes last.
-/

namespace SampleHarvest

/-- A year, a month and a day. -/
structure Date where
  /-- The year; zero is the year before year one. -/
  year : Int
  month : Nat
  day : Nat
  deriving DecidableEq, Repr

namespace Date

def isLeapYear (year : Int) : Bool := year % 4 == 0 && (year % 100 != 0 || year % 400 == 0)

def daysInMonth (year : Int) (month : Nat) : Nat :=
  if month = 2 then (if isLeapYear year then 29 else 28)
  else if month = 4 ∨ month = 6 ∨ month = 9 ∨ month = 11 then 30
  else 31

def minYear : Int := -262143

def maxYear : Int := 262142

/-- Whether the calendar has this date, in a year that can be told. -/
def isValid (date : Date) : Bool :=
  minYear ≤ date.year && date.year ≤ maxYear && 1 ≤ date.month && date.month ≤ 12 &&
    1 ≤ date.day && date.day ≤ daysInMonth date.year date.month

def dayNumber (date : Date) : Int :=
  let year := if date.month ≤ 2 then date.year - 1 else date.year
  let era := year / 400
  let yearOfEra := year - era * 400
  let month : Int := if date.month ≤ 2 then date.month + 9 else date.month - 3
  let dayOfYear := (153 * month + 2) / 5 + date.day - 1
  era * 146097 + (yearOfEra * 365 + yearOfEra / 4 - yearOfEra / 100 + dayOfYear) - 719468

/-- The date that many days after 1 January 1970. -/
def ofDayNumber (number : Int) : Date :=
  let shifted := number + 719468
  let era := shifted / 146097
  let dayOfEra := shifted - era * 146097
  let yearOfEra :=
    (dayOfEra - dayOfEra / 1460 + dayOfEra / 36524 - dayOfEra / 146096) / 365
  let dayOfYear := dayOfEra - (365 * yearOfEra + yearOfEra / 4 - yearOfEra / 100)
  let month := (5 * dayOfYear + 2) / 153
  let day := dayOfYear - (153 * month + 2) / 5 + 1
  { year := yearOfEra + era * 400 + (if 10 ≤ month then 1 else 0)
    month := (if month < 10 then month + 3 else month - 9).toNat
    day := day.toNat }

/-- A year with at least four digits, and with a sign outside the years 0 to 9999. -/
def yearText (year : Int) : Text :=
  let digits := Text.zeroPadded 4 year.natAbs
  if year < 0 then '-' :: digits else if 9999 < year then '+' :: digits else digits

/-- Year, month and day with hyphens between them. -/
def isoText (date : Date) : Text :=
  yearText date.year ++ "-" ++ Text.zeroPadded 2 date.month ++ "-" ++ Text.zeroPadded 2 date.day

/-- Month, day and year with slashes between them. -/
def slashText (date : Date) : Text :=
  Text.zeroPadded 2 date.month ++ "/" ++ Text.zeroPadded 2 date.day ++ "/" ++ yearText date.year

end Date

end SampleHarvest
