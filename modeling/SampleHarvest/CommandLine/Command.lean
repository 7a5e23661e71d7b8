import SampleHarvest.Dialect.Basic
import SampleHarvest.Ledger.Basic

/-!
# Commands

The commands of the program: to extract a release, to split one file, and to look after the ledger.
What a request leaves out is taken from the settings or from the custom of the dialect.

A command answers in lines of text or as one JSON value. If it fails, it says so in the same form.
-/

namespace SampleHarvest

/-- The form in which a command answers. -/
inductive OutputFormat where
  | text
  | json
  deriving DecidableEq, Repr

def OutputFormat.ofName? (t : Text) : Option OutputFormat :=
  if t = "text" then some text else if t = "json" then some json else none

structure ExtractRequest where
  dialect : Dialect
  sources : Path
  output : Path
  tag : Text
  package : Text
  version : Text
  sdkName? : Option Text
  name? : Option Text
  published? : Option Text
  validate? : Option Text
  validateArguments : List Text
  concurrency? : Option Nat
  policy? : Option Policy
  ledger? : Option Path
  dryRun : Bool
  format : OutputFormat
  deriving DecidableEq, Repr

/-- Which file is split and how its units are shown. -/
structure SplitRequest where
  file : Path
  /-- The dialect of the file; without one its extension decides. -/
  dialect? : Option Dialect
  showsCode : Bool
  format : OutputFormat
  deriving DecidableEq, Repr

/-- Where a snapshot of the ledger goes. -/
inductive SnapshotTarget where
  | output
  | file (path : Path)
  | tables (folder : Path) (lead : Text)
  deriving DecidableEq, Repr

inductive LedgerTask where
  | list (language? : Option Text) (format : OutputFormat)
  | check (name language : Text) (format : OutputFormat)
  | files (name language : Text) (format : OutputFormat)
  | remove (name language : Text)
  | snapshot (language? : Option Text) (target : SnapshotTarget)
  deriving DecidableEq, Repr

inductive LedgerCommand where
  | init
  | task (task : LedgerTask)
  deriving DecidableEq, Repr

/-- What the program is asked to do. -/
inductive Command where
  | extract (request : ExtractRequest)
  | split (request : SplitRequest)
  /-- To work on the ledger in this file, or in the one of the settings. -/
  | ledger (path? : Option Path) (command : LedgerCommand)
  deriving DecidableEq, Repr

/-- The files and folders to which a command on a ledger writes. -/
def LedgerCommand.targets : LedgerCommand → List Path
  | task (.snapshot _ (.file path)) => [path]
  | task (.snapshot _ (.tables folder _)) => [folder]
  | _ => []

/-- Whether the answer to a task, also that it failed, is one JSON value. -/
def LedgerTask.answersInJson : LedgerTask → Bool
  | list _ format => format = .json
  | check _ _ format => format = .json
  | files _ _ format => format = .json
  | remove _ _ => false
  | snapshot _ target => target = .output

/-- Whether the answer to a command, also that it failed, is one JSON value. -/
def Command.answersInJson : Command → Bool
  | extract request => request.format = .json
  | split request => request.format = .json
  | ledger _ .init => false
  | ledger _ (.task task) => task.answersInJson

end SampleHarvest
