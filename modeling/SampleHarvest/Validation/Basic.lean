import SampleHarvest.Dialect.Rules
import SampleHarvest.Failure

/-!
# Validation

Before an example is published an oracle is asked about it. A rejection is an ordinary answer and
carries diagnostics; a failure means that the oracle could not answer at all.
-/

namespace SampleHarvest

/-- A standalone source that is offered for validation. -/
structure Candidate where
  dialect : Dialect
  stem : Text
  content : Text
  deriving DecidableEq, Repr

/-- The file name that a compiler expects of a candidate. Where a shared symbol is renamed, the file
is named after it. -/
def Candidate.scratchName (candidate : Candidate) : Text :=
  let rules := candidate.dialect.rules
  rules.renameTarget?.getD candidate.stem ++ "." ++ rules.extension

/-- The answer about a candidate. -/
inductive Verdict where
  | accept
  | reject (diagnostics : Text)
  deriving DecidableEq, Repr

abbrev Oracle := Candidate → Except Failure Verdict

namespace Oracle

def acceptAll : Oracle := fun _ => .ok .accept

/-- The oracle that looks for forbidden texts: one of `fatal` makes it fail, one of `forbidden`
makes it reject. -/
def ofForbidden (forbidden fatal : List Text) : Oracle := fun candidate =>
  if fatal.any candidate.content.contains then .error (.validation "cannot run")
  else if forbidden.any candidate.content.contains then .ok (.reject "contains forbidden text")
  else .ok .accept

end Oracle

end SampleHarvest
