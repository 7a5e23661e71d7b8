import SampleHarvest.Sample.Marker

/-!
# Units

A unit is one demonstration routine with the comment above it. One scan step goes forward from a
position: it remembers the last marker, finds the line that opens a unit and then the first line
after it that closes one. Only then does it go back over the comment lines above, and never past the
position it started from.

A unit whose last marker gave no reference is not valid. It keeps its range, so that the scan can
step over it, but takes no comment lines.
-/

namespace SampleHarvest

/-- A routine found in a sample, valid or not. -/
structure SampleUnit where
  /-- The specification example it shows; none if it is not valid. -/
  reference? : Option Text
  start : Nat
  /-- The position after its last line, where the next scan step begins. -/
  stop : Nat
  body : List Line
  deriving DecidableEq, Repr

namespace SampleUnit

def isValid (u : SampleUnit) : Bool := u.reference?.isSome

def bodyText (u : SampleUnit) : Text := u.body.flatten

end SampleUnit

namespace DialectRules

/-- An opening line: the reference in force there, its position and the lines below it. -/
structure Opening where
  reference? : Option Text
  index : Nat
  below : List Line

/-- The first opening line. `pending?` is the reference of the last marker seen. -/
def opening? (rules : DialectRules) : (pending? : Option Text) → (index : Nat) → List Line →
    Option Opening
  | _, _, [] => none
  | pending?, index, line :: below =>
    if rules.isMarker line then rules.opening? (rules.reference? line below) (index + 1) below
    else if rules.isUnitStart line then some ⟨pending?, index, below⟩
    else rules.opening? pending? (index + 1) below

/-- The position after the first closing line. -/
def closing? (rules : DialectRules) : (index : Nat) → List Line → Option Nat
  | _, [] => none
  | index, line :: below =>
    if rules.isUnitEnd line then some (index + 1) else rules.closing? (index + 1) below

/-- How many comment lines stand at the end of these lines. -/
def trailingComments (rules : DialectRules) (lines : List Line) : Nat :=
  (lines.reverse.takeWhile rules.isComment).length

/-- The first unit at or after a position. -/
def nextUnit? (rules : DialectRules) (lines : List Line) (start : Nat) : Option SampleUnit := do
  let opening ← rules.opening? none start (lines.drop start)
  let stop ← rules.closing? (opening.index + 1) opening.below
  let first :=
    if opening.reference?.isSome then
      opening.index - rules.trailingComments ((lines.take opening.index).drop start)
    else opening.index
  return ⟨opening.reference?, first, stop, (lines.take stop).drop first⟩

end DialectRules

end SampleHarvest
