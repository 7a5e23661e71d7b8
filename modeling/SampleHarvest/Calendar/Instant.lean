import SampleHarvest.Calendar.Date

/-!
# Instants

An instant is a second counted from 1970-01-01T00:00:00Z with a fraction in nanoseconds. A fraction
of a whole second or more belongs to a leap second, which has the count of the second before it.

The text of an instant is in universal time with as many groups of three decimals as are needed.
-/

namespace SampleHarvest

/-- A second since the start of 1970 and the nanoseconds since that second. -/
structure Instant where
  seconds : Int
  /-- The nanoseconds since the second; a thousand million or more within a leap second. -/
  nanos : Nat
  deriving DecidableEq, Repr

namespace Instant

def epoch : Instant := ⟨0, 0⟩

/-- The date of an instant in universal time. -/
def date (instant : Instant) : Date := Date.ofDayNumber (instant.seconds / 86400)

/-- Whether a second lies in a year that can be told. -/
def isTold (seconds : Int) : Bool :=
  let year := (Date.ofDayNumber (seconds / 86400)).year
  Date.minYear ≤ year && year ≤ Date.maxYear

/-- The instant of a second and of nanoseconds since then. A fraction of a whole second or more can
only stand behind the last second of a minute. -/
def of? (seconds : Int) (nanos : Nat) : Option Instant :=
  let isLeap := 1000000000 ≤ nanos && nanos < 2000000000 && seconds % 60 == 59
  if isTold seconds ∧ (nanos < 1000000000 ∨ isLeap) then some ⟨seconds, nanos⟩ else none

/-- The instant of a stored second; one outside the years that can be told counts as the first of
1970. -/
def ofStored (seconds : Int) : Instant := if isTold seconds then ⟨seconds, 0⟩ else epoch

/-- The decimals of a fraction of a second, in groups of three and with the point before them. -/
def fractionText (nanos : Nat) : Text :=
  if nanos = 0 then []
  else if nanos % 1000000 = 0 then '.' :: Text.zeroPadded 3 (nanos / 1000000)
  else if nanos % 1000 = 0 then '.' :: Text.zeroPadded 6 (nanos / 1000)
  else '.' :: Text.zeroPadded 9 nanos

/-- Date and time of day in universal time. -/
def isoText (instant : Instant) : Text :=
  let time := (instant.seconds % 86400).toNat
  let leap := if 1000000000 ≤ instant.nanos then 1 else 0
  instant.date.isoText ++ "T" ++ Text.zeroPadded 2 (time / 3600) ++ ":" ++
    Text.zeroPadded 2 (time / 60 % 60) ++ ":" ++ Text.zeroPadded 2 (time % 60 + leap) ++
    fractionText (instant.nanos - leap * 1000000000) ++ "Z"

end Instant

end SampleHarvest
