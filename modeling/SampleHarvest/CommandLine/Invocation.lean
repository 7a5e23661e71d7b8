import SampleHarvest.CommandLine.Arguments
import SampleHarvest.CommandLine.Command
import SampleHarvest.Text.Decimal

/-!
# Invocations

An invocation is what a whole command line asks for: a command and the settings file that it is to
use. Each command has its level of arguments. The options about messages, colours and settings can
stand on every level, and of two settings files the one that is named further inside counts. So it
is with the ledger file on the levels of the commands on a ledger.

Messages about progress and colours are never printed, so the options about them change nothing. Yet
more and fewer messages cannot be asked for on the same level.
-/

namespace SampleHarvest

/-- A command with the settings file that it is to use. -/
structure Invocation where
  config? : Option Path
  command : Command
  deriving DecidableEq, Repr

/-- A command on a ledger with the files that it is to use. -/
structure LedgerInvocation where
  config? : Option Path
  ledger? : Option Path
  command : LedgerCommand
  deriving DecidableEq, Repr

namespace CommandLine

def anyText (_ : Text) : Bool := true

def isPath (t : Text) : Bool := !t.isEmpty

def flag (name : Text) : OptionRule := ⟨name, none, .flag⟩

def valued (name : Text) (accepts : Text → Bool) : OptionRule := ⟨name, none, .value accepts⟩

/-- The options that can stand on every level. -/
def commonOptions : List OptionRule :=
  [⟨"verbose", some 'v', .flag⟩, ⟨"quiet", some 'q', .flag⟩, flag "no-color",
    valued "config" isPath, ⟨"help", some 'h', .request .help⟩]

/-- The option that names the ledger file. -/
def ledgerOption : OptionRule := valued "ledger" isPath

def dialectOption : OptionRule := valued "dialect" fun t => (Dialect.parse? t).isSome

/-- The option that selects a format, by a letter too. -/
def formatOption (accepts : Text → Bool) : OptionRule := ⟨"format", some 'f', .value accepts⟩

def answerOption : OptionRule := formatOption fun t => (OutputFormat.ofName? t).isSome

/-- The form of an answer; lines of text unless it is given. -/
def answerFormat (given : Given) : OutputFormat :=
  ((given.value? "format").bind OutputFormat.ofName?).getD .text

/-- The greatest number that can be given. -/
def maxCount : Nat := 18446744073709551615

/-- The number of files to be taken at a time, with or without a plus sign. -/
def count? (t : Text) : Option Nat :=
  (Text.toNat? (t.dropLead "+")).filter fun n => n ≤ maxCount

/-- Refuses to print more and fewer messages. -/
def checkMessages (given : Given) : Except Refusal Unit :=
  if given.has "verbose" && given.has "quiet" then .error .usage else .ok ()

def extractLevel : Level :=
  { options := commonOptions ++
      [dialectOption, valued "sources" isPath, valued "output" isPath, valued "tag" anyText,
        valued "package" anyText, valued "release-version" anyText, valued "sdk-name" anyText,
        valued "name" anyText, valued "published-at" anyText, valued "validate" anyText,
        ⟨"validate-arg", none, .anyValues⟩, valued "concurrency" fun t => (count? t).isSome,
        valued "on-duplicate" fun t => (Policy.parse? t).isSome, ledgerOption, flag "dry-run",
        answerOption]
    operands := []
    commands := [] }

def splitLevel : Level :=
  { options := commonOptions ++ [dialectOption, flag "code", answerOption]
    operands := [isPath]
    commands := [] }

/-- The options that can stand on every level of the commands on a ledger. -/
def ledgerOptions : List OptionRule := commonOptions ++ [ledgerOption]

def wholeLevel (options : List OptionRule) : Level := ⟨ledgerOptions ++ options, [], []⟩

/-- The level of a command on one release in a ledger. -/
def releaseLevel (options : List OptionRule) : Level :=
  ⟨ledgerOptions ++ options, [anyText, anyText], []⟩

def snapshotLevel : Level :=
  wholeLevel [valued "language" anyText, valued "output" isPath, valued "prefix" anyText,
    formatOption fun t => t = "json" || t = "csv"]

/-- The level on which a command on a ledger is named. -/
def ledgerLevel : Level :=
  { options := ledgerOptions
    operands := []
    commands := ["init", "list", "check", "files", "remove", "export", "help"] }

/-- The level on which a command is named. -/
def topLevel : Level :=
  { options := commonOptions ++ [⟨"version", some 'V', .request .version⟩]
    operands := []
    commands := ["extract", "split", "ledger", "help"] }

/-- What a request for help comes to that names these commands, each one among those of the level
that the one before it begins. -/
def helpOn : (commands names : List Text) → Refusal
  | _, [] => .help
  | commands, name :: names =>
    if !commands.contains name then .usage
    else helpOn (if name = "ledger" then ledgerLevel.commands else []) names

/-- How the names of tables begin unless it is given. -/
def defaultLead : Text := "java-library"

/-- Where a snapshot goes. Tables need a folder. -/
def snapshotTarget (given : Given) : Except Refusal SnapshotTarget :=
  if given.value? "format" = some (String.toList "csv") then
    return .tables (← given.required "output") ((given.value? "prefix").getD defaultLead)
  else
    return match given.value? "output" with
      | some path => .file path
      | none => .output

end CommandLine

open CommandLine

namespace LedgerInvocation

def under (inner : LedgerInvocation) (given : Given) : Except Refusal LedgerInvocation := do
  checkMessages given
  return { inner with
    config? := inner.config? <|> given.value? "config"
    ledger? := inner.ledger? <|> given.value? "ledger" }

def of (command : LedgerCommand) (given : Given) : Except Refusal LedgerInvocation :=
  under ⟨none, none, command⟩ given

/-- Reads the arguments of a command on one release. -/
def readRelease (options : List OptionRule) (task : Given → Text → Text → LedgerTask)
    (arguments : List Text) : Except Refusal LedgerInvocation := do
  let given ← (releaseLevel options).read arguments
  match given.operands with
  | [name, language] => of (.task (task given name language)) given
  | _ => throw .usage

def readList (arguments : List Text) : Except Refusal LedgerInvocation := do
  let given ← (wholeLevel [valued "language" anyText, answerOption]).read arguments
  of (.task (.list (given.value? "language") (answerFormat given))) given

def readSnapshot (arguments : List Text) : Except Refusal LedgerInvocation := do
  let given ← snapshotLevel.read arguments
  of (.task (.snapshot (given.value? "language") (← snapshotTarget given))) given

def read (command : Text) (arguments : List Text) : Except Refusal LedgerInvocation :=
  if command = "init" then (wholeLevel []).read arguments >>= of .init
  else if command = "list" then readList arguments
  else if command = "check" then
    readRelease [answerOption]
      (fun given name language => .check name language (answerFormat given)) arguments
  else if command = "files" then
    readRelease [answerOption]
      (fun given name language => .files name language (answerFormat given)) arguments
  else if command = "remove" then readRelease [] (fun _ => .remove) arguments
  else if command = "export" then readSnapshot arguments
  else if command = "help" then .error (helpOn ledgerLevel.commands arguments)
  else .error .usage

end LedgerInvocation

namespace Invocation

def under (inner : Invocation) (given : Given) : Except Refusal Invocation := do
  checkMessages given
  return { inner with config? := inner.config? <|> given.value? "config" }

def of (command : Command) (given : Given) : Except Refusal Invocation :=
  under ⟨none, command⟩ given

def readExtract (arguments : List Text) : Except Refusal Invocation := do
  let given ← extractLevel.read arguments
  match Dialect.parse? (← given.required "dialect") with
  | none => throw .usage
  | some dialect =>
    let request : ExtractRequest :=
      { dialect
        sources := ← given.required "sources"
        output := ← given.required "output"
        tag := ← given.required "tag"
        package := ← given.required "package"
        version := ← given.required "release-version"
        sdkName? := given.value? "sdk-name"
        name? := given.value? "name"
        published? := given.value? "published-at"
        validate? := given.value? "validate"
        validateArguments := given.values "validate-arg"
        concurrency? := (given.value? "concurrency").bind count?
        policy? := (given.value? "on-duplicate").bind Policy.parse?
        ledger? := given.value? "ledger"
        dryRun := given.has "dry-run"
        format := answerFormat given }
    of (.extract request) given

def readSplit (arguments : List Text) : Except Refusal Invocation := do
  let given ← splitLevel.read arguments
  match given.operands with
  | [file] =>
    let request : SplitRequest :=
      { file
        dialect? := (given.value? "dialect").bind Dialect.parse?
        showsCode := given.has "code"
        format := answerFormat given }
    of (.split request) given
  | _ => throw .usage

def readLedger (arguments : List Text) : Except Refusal Invocation := do
  let given ← ledgerLevel.read arguments
  match given.next? with
  | none => throw .noCommand
  | some (command, rest) =>
    let inner ← (← LedgerInvocation.read command rest).under given
    return ⟨inner.config?, .ledger inner.ledger? inner.command⟩

def readCommand (command : Text) (arguments : List Text) : Except Refusal Invocation :=
  if command = "extract" then readExtract arguments
  else if command = "split" then readSplit arguments
  else if command = "ledger" then readLedger arguments
  else if command = "help" then .error (helpOn topLevel.commands arguments)
  else .error .usage

/-- What a command line asks for. -/
def parse (arguments : List Text) : Except Refusal Invocation := do
  let given ← topLevel.read arguments
  match given.next? with
  | none => throw .noCommand
  | some (command, rest) => (← readCommand command rest).under given

end Invocation

end SampleHarvest
