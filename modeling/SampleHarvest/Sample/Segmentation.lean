import SampleHarvest.Sample.Unit

/-!
# Segmentation

A sample is taken apart by repeating the scan step, each time from where the last unit ended. The
lines before the first valid unit are the prologue and those after the last one the epilogue, so
that routines without a marker at either end stay shared by all units.

A sample without a valid unit is all prologue.
-/

namespace SampleHarvest

namespace DialectRules

def scanFrom (rules : DialectRules) (lines : List Line) : (steps : Nat) → (cursor : Nat) →
    List SampleUnit
  | 0, _ => []
  | steps + 1, cursor =>
    match rules.nextUnit? lines cursor with
    | none => []
    | some u => u :: rules.scanFrom lines steps u.stop

/-- Every unit of a sample, valid or not. Each step takes a line, so there are enough of them. -/
def scan (rules : DialectRules) (lines : List Line) : List SampleUnit :=
  rules.scanFrom lines lines.length 0

end DialectRules

/-- A sample taken apart. -/
structure Sample where
  prologue : List Line
  epilogue : List Line
  /-- The valid units, in the order of the lines. -/
  units : List SampleUnit
  deriving DecidableEq, Repr

def Sample.ofLines (rules : DialectRules) (lines : List Line) : Sample :=
  let units := (rules.scan lines).filter SampleUnit.isValid
  match units.head?, units.getLast? with
  | some first, some last =>
    { prologue := lines.take first.start, epilogue := lines.drop last.stop, units }
  | _, _ => { prologue := lines, epilogue := [], units }

end SampleHarvest
