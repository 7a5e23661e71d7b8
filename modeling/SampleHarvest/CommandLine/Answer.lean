import SampleHarvest.CommandLine.Failure
import SampleHarvest.Disk.Basic

/-!
# Answers

A command works on a disk. It leaves a disk behind, and either it has an answer, with a status that
is zero unless the answer is a no, or it failed. What it changed before it failed stays changed.
-/

namespace SampleHarvest

structure Answer where
  text : Text
  status : Nat
  deriving DecidableEq, Repr

namespace Answer

def of (text : Text) : Answer := ⟨text, 0⟩

/-- An answer of one JSON value over several lines. -/
def json (value : Json) : Answer := of (value.pretty ++ "\n")

def lines (lines : List Text) : Answer := of (lines.flatMap fun line => line ++ "\n")

end Answer

/-- A command as it leaves the disk behind. -/
structure Executed where
  disk : Disk
  result : Except CommandFailure Answer

end SampleHarvest
