import SampleHarvest.Failure
import SampleHarvest.Json

/-!
# Failed commands

A command that fails has a category, which decides the status with which the program ends, and a
chain of messages from what was attempted down to the cause. The category is that of the failure in
the chain; a fault of the file system that no rule of the library stands above is internal.

The report of a failed command is one line: the chain for a reader, or one JSON value.
-/

namespace SampleHarvest

/-- The kinds of failed commands. -/
inductive FailureCategory where
  | internal
  | usage
  | notFound
  | conflict
  | validation
  | storage
  | aborted
  deriving DecidableEq, Repr

namespace FailureCategory

/-- The status with which the program ends. -/
def status : FailureCategory → Nat
  | internal => 1
  | usage => 2
  | notFound => 3
  | conflict => 4
  | validation => 5
  | storage => 6
  | aborted => 101

def name : FailureCategory → Text
  | internal => "internal error"
  | usage => "usage error"
  | notFound => "not found"
  | conflict => "conflict"
  | validation => "validation error"
  | storage => "storage error"
  | aborted => "aborted"

def ofFailure : Failure → FailureCategory
  | .config _ => usage
  | .parse _ => usage
  | .notFound _ => notFound
  | .conflict _ => conflict
  | .validation _ => validation
  | .io _ => storage
  | .storage _ => storage
  | .ledger _ => storage
  | .serialization _ => internal
  | .other _ => internal
  | .aborted _ => aborted

end FailureCategory

structure CommandFailure where
  category : FailureCategory
  /-- The messages, from what was attempted down to the cause. -/
  chain : List Text
  deriving DecidableEq, Repr

namespace CommandFailure

def of (failure : Failure) : CommandFailure := ⟨.ofFailure failure, failure.chain⟩

/-- A command that failed in what this message says. -/
def during (attempt : Text) (failure : Failure) : CommandFailure :=
  ⟨.ofFailure failure, attempt :: failure.chain⟩

/-- A command that the file system stopped in what this message says. -/
def stopped (attempt : Text) (fault : DiskFault) : CommandFailure :=
  ⟨.internal, [attempt, fault.message]⟩

/-- A command that cannot be carried out, for a reason that is its own cause. -/
def stated (category : FailureCategory) (reason : Text) : CommandFailure :=
  ⟨category, [reason, reason]⟩

def message (failure : CommandFailure) : Text := Text.joinWith ": " failure.chain

/-- The report for a reader. -/
def text (failure : CommandFailure) : Text := "Error: " ++ failure.message ++ "\n"

/-- The report as a JSON value. -/
def json (failure : CommandFailure) : Json :=
  .object
    [("category", .string failure.category.name), ("error", .string failure.message),
      ("status", .string "failed")]

end CommandFailure

end SampleHarvest
