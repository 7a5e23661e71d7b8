import SampleHarvest.Dialect.Basic
import SampleHarvest.Ledger.Basic

/-!
# Settings

Where the ledger is and how it treats a release that comes again, how examples are validated, and
which templates the links in the documents follow. Everything has a default.

Settings are usable if at least one file is taken at a time and the validation program, if there is
one, has a name.
-/

namespace SampleHarvest

structure LedgerSettings where
  path : Path
  /-- What happens to a release that is already recorded. -/
  onDuplicate : Policy
  deriving DecidableEq, Repr

structure ValidationSettings where
  concurrency : Nat
  /-- How many seconds the validation program may take for a candidate. -/
  timeoutSeconds? : Option Nat
  /-- The validation program; without one everything is accepted. -/
  command? : Option Text
  arguments : List Text
  deriving DecidableEq, Repr

/-- The link templates that take the place of those of the dialects. -/
structure DocsSettings where
  go? : Option Text
  javaScript? : Option Text
  java? : Option Text
  deriving DecidableEq, Repr

def DocsSettings.template? (docs : DocsSettings) : Dialect → Option Text
  | .go => docs.go?
  | .javaScript => docs.javaScript?
  | .java => docs.java?

/-- All settings. -/
structure Config where
  ledger : LedgerSettings
  validation : ValidationSettings
  docs : DocsSettings
  deriving DecidableEq, Repr

namespace Config

/-- How many files are taken at a time unless it is set. -/
def defaultConcurrency : Nat := 4

/-- The settings of a user whose ledger is at this path. -/
def default (ledgerPath : Path) : Config :=
  { ledger := ⟨ledgerPath, .reject⟩
    validation := ⟨defaultConcurrency, none, none, []⟩
    docs := ⟨none, none, none⟩ }

/-- Why settings are not usable. -/
inductive Defect where
  | noConcurrency
  | blankCommand
  deriving DecidableEq, Repr

/-- What is said about a defect. -/
def Defect.message : Defect → Text
  | noConcurrency => "validation.concurrency must be at least 1"
  | blankCommand => "validation.command must not be empty"

def defect? (config : Config) : Option Defect :=
  if config.validation.concurrency = 0 then some .noConcurrency
  else if config.validation.command?.any fun command => command.trim.isEmpty then
    some .blankCommand
  else none

end Config

end SampleHarvest
