import SampleHarvest.Shell.Builtin.Basic
import SampleHarvest.Shell.Check

/-!
# Checks as commands

A check succeeds if its condition holds. It can be written with brackets around it, which changes
only its name and the last word.
-/

namespace SampleHarvest

namespace Shell

namespace Builtin

def check : Builtin := fun _ words => do
  match Check.parse words with
  | .error message => refuse message
  | .ok found =>
    match ← found.holds fun t => "Illegal number: " ++ t with
    | .ok value => return if value then 0 else 1
    | .error message => refuse message

/-- Checks a condition between brackets. -/
def bracket : Builtin := fun runner words => do
  match Check.unbracketed? words with
  | some words => check runner words
  | none => refuse "missing \x5d"

end Builtin

end Shell

end SampleHarvest
