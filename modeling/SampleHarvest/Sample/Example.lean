import SampleHarvest.Sample.Standalone
import SampleHarvest.Target

/-!
# Examples

An example is a valid unit made into a standalone source, with the place where it is published. The
examples of a sample keep the order and the numbers of its units.

A file without any marker has no examples; this is seen before it is taken apart.
-/

namespace SampleHarvest

/-- A valid unit as a standalone source. -/
structure Example where
  /-- The number of the unit among the valid units of its file. -/
  index : Nat
  reference : Text
  target : Target
  /-- The position of the first line of the unit. -/
  start : Nat
  /-- The position after the last line of the unit. -/
  stop : Nat
  code : Text
  deriving DecidableEq, Repr

namespace Sample

/-- The example that a unit with this reference makes. -/
def exampleOf (sample : Sample) (rules : DialectRules) (rename? : Option Rename) (index : Nat)
    (u : SampleUnit) (reference : Text) : Example :=
  { index, reference
    target := Target.ofReference reference rules.folderSuffix
    start := u.start
    stop := u.stop
    code := (sample.standalone rules u rename?).flatten }

def examples (sample : Sample) (rules : DialectRules) (symbol : Text) : List Example :=
  sample.units.zipIdx.filterMap fun (u, index) =>
    u.reference?.map (sample.exampleOf rules (rules.rename? symbol) index u)

end Sample

/-- The examples of a source text whose shared symbol is given. -/
def extractExamples (rules : DialectRules) (text symbol : Text) : List Example :=
  let lines := splitLines text
  if rules.isAggregated lines then (Sample.ofLines rules lines).examples rules symbol else []

end SampleHarvest
