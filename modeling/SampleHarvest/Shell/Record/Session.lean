import SampleHarvest.Shell.Record.Parse
import SampleHarvest.Shell.Search
import SampleHarvest.Shell.Utility.Basic

/-!
# Runs of record programs

While a program runs it has variables, tables, the record with its fields, and files and commands
that are read from or printed to. What is printed to the output is held back until a command is run
or the program ends. A command that is printed to is run when it is closed, at the end at the
latest.
-/

namespace SampleHarvest

namespace Shell

namespace Record

/-- Why statements are passed over. -/
inductive Leave where
  | broken
  | nextRound
  | next
  | nextFile
  | exited
  | returned (value : Value)
  | failed (message : Text)

/-- What is printed to. -/
inductive Sink where
  | file (stream : Nat)
  | command (text : Text)

/-- A variable of a function. -/
structure Local where
  value : Value
  table : Text

/-- The state of a run. -/
structure Session where
  runner : Runner
  program : Program
  bindings : List (Text × Value) := []
  locals : List (Text × Local) := []
  tables : List (Text × Table) := []
  record : Text := []
  fields : List Text := []
  argument : Nat := 1
  hasRead : Bool := false
  rest? : Option Text := none
  sources : List (Text × Text) := []
  sinks : List (Text × Sink) := []
  held : List Text := []
  ranges : List Nat := []
  nextTable : Nat := 0
  status : Nat := 0

/-- Something that is done in a run. -/
abbrev Doing := ExceptT Leave (StateT Session Act)

def onMachine (act : Act α) : Doing α := fun session => do return (.ok (← act), session)

/-- The program cannot go on. -/
def fail (message : Text) : Doing α := throw (.failed message)

/-- The value of a variable that is none of a function. -/
def Session.global (session : Session) (name : Text) : Value :=
  if name = "NF" then .ofNat session.fields.length
  else (session.bindings.lookup name).getD .missing

/-- A text that a variable holds. -/
def Session.setting (session : Session) (name : Text) : Text :=
  (session.global name).toText "%.6g"

def Session.format (session : Session) : Text := session.setting "CONVFMT"

/-- Sets a variable that is none of a function. -/
def Session.withGlobal (session : Session) (name : Text) (value : Value) : Session :=
  { session with
    bindings := (name, value) :: session.bindings.filter fun entry => entry.1 != name }

/-- The fields between matches of an expression. -/
def splitByRegex (regex : Regex) (t : Text) : List Text :=
  let (found, rest) := regex.findAll (2 * t.length + 2) none true t
  let rec go (lead : Text) : List (Text × Regex.Match) → List Text
    | [] => [lead ++ rest]
    | (front, found) :: others =>
      if found.fitted.isEmpty then go (lead ++ front) others
      else (lead ++ front) :: go [] others
  if t.isEmpty then [] else go [] found

/-- The fields between blanks. -/
def splitByBlanks (t : Text) : List Text :=
  (Text.splitOn ' ' (t.map fun c => if Text.isRawBlank c then ' ' else c)).filter (!·.isEmpty)

def splitFields (separator : Text) (t : Text) : Doing (List Text) := do
  match separator with
  | [] => return t.map fun c => [c]
  | [c] =>
    if c = ' ' then return splitByBlanks t
    if t.isEmpty then return []
    return Text.splitOn c t
  | _ =>
    match regexOf separator with
    | .ok regex => return splitByRegex regex t
    | .error message => fail message

def setRecord (t : Text) : Doing Unit := do
  let session ← get
  let separator := session.setting "FS"
  let isByParagraph := (session.setting "RS").isEmpty
  let fields ←
    if isByParagraph ∧ separator ≠ " " then do
      let lines := Text.splitOn '\n' t
      let rec all : List Text → Doing (List Text)
        | [] => return []
        | line :: lines => do return (← splitFields separator line) ++ (← all lines)
      all lines
    else splitFields separator t
  modify ({ · with record := t, fields })

/-- Puts the record together from its fields. -/
def joinFields : Doing Unit :=
  modify fun session =>
    { session with record := Text.joinWith (session.setting "OFS") session.fields }

def setField (number : Nat) (t : Text) : Doing Unit := do
  if number = 0 then setRecord t
  else
    modify fun session =>
      let missing := List.replicate (number - session.fields.length) []
      { session with fields := (session.fields ++ missing).set (number - 1) t }
    joinFields

def setVariable (name : Text) (value : Value) : Doing Unit := do
  let session ← get
  match session.locals.lookup name with
  | some old =>
    let others := session.locals.filter fun entry => entry.1 != name
    set { session with locals := (name, { old with value }) :: others }
  | none =>
    if name = "NF" then
      let count := (truncated value.toNumber).toNat
      let missing := List.replicate (count - session.fields.length) []
      set { session with fields := session.fields.take count ++ missing }
      joinFields
    else set (session.withGlobal name value)

def valueOf (name : Text) : Doing Value := do
  let session ← get
  match session.locals.lookup name with
  | some found => return found.value
  | none => return session.global name

def tableName (name : Text) : Doing Text := do
  match (← get).locals.lookup name with
  | some found => return found.table
  | none => return name

def table (name : Text) : Doing Table := do
  let name ← tableName name
  return ((← get).tables.lookup name).getD {}

def setTable (name : Text) (table : Table) : Doing Unit := do
  let name ← tableName name
  modify fun session =>
    { session with
      tables := (name, table) :: session.tables.filter fun entry => entry.1 != name }

/-- Prints what has been held back. -/
def flush : Doing Unit := do
  let pieces := (← get).held.reverse
  modify ({ · with held := [] })
  onMachine (put pieces.flatten)

/-- Runs a command in a process of its own, with an input if it has one, and gives the status. -/
def runCommand (command : Text) (input? : Option Text) : Doing Nat := do
  let runner := (← get).runner
  onMachine do
    let stream? ←
      match input? with
      | some t => some <$> addStream (.pipe t)
      | none => pure none
    let (status, _) ← inChild runner do
      match stream? with
      | some stream => setDescriptor 0 (some stream)
      | none => pure ()
      let _ ← runNamed runner ["sh", "-c", command]
    return status

def commandOutput (command : Text) : Doing Text := do
  flush
  let runner := (← get).runner
  let (output, _) ← onMachine (outputOf runner do
    let _ ← runNamed runner ["sh", "-c", command])
  return output

/-- Prints a text to the sink with a name, which is opened first if it is not open. -/
def printTo (name : Text) (opened : Doing Sink) (t : Text) : Doing Unit := do
  let sink ←
    match (← get).sinks.lookup name with
    | some sink => pure sink
    | none =>
      let sink ← opened
      modify fun session => { session with sinks := session.sinks ++ [(name, sink)] }
      pure sink
  match sink with
  | .file stream => onMachine (writeStream stream t)
  | .command old =>
    modify fun session =>
      { session with
        sinks := session.sinks.map fun entry =>
          if entry.1 = name then (name, .command (old ++ t)) else entry }

def printOut (t : Text) : Doing Unit :=
  modify fun session => { session with held := t :: session.held }

def printFile (name : Text) (appends : Bool) (t : Text) : Doing Unit := do
  if name = "/dev/stdout" ∨ name = "-" then printOut t
  else if name = "/dev/stderr" then
    let _ ← onMachine (writeTo 2 t)
  else
    printTo name
      (do
        match ← onMachine (openPath (if appends then .appending else .writing) name) with
        | .ok stream => return .file stream
        | .error fault =>
          fail ("cannot open \"" ++ name ++ "\" for output (" ++ fault.reason ++ ")"))
      t

def printCommand (name : Text) (t : Text) : Doing Unit :=
  printTo name (do
    flush
    return .command []) t

/-- Closes a file or a command, and gives its status, if it was open. -/
def close (name : Text) : Doing (Option Nat) := do
  let session ← get
  set { session with
    sinks := session.sinks.filter fun entry => entry.1 != name
    sources := session.sources.filter fun entry => entry.1 != name }
  match session.sinks.lookup name with
  | some (.command t) => return some (← runCommand name (some t))
  | some (.file _) => return some 0
  | none => return if (session.sources.lookup name).isSome then some 0 else none

/-- Closes everything that is open. -/
def closeAll : Doing Unit := do
  for (name, _) in (← get).sinks do
    let _ ← close name
  flush

def splitRecord (separator : Text) (t : Text) : Doing (Option (Text × Text)) := do
  if t.isEmpty then return none
  match separator with
  | [] =>
    let t := t.dropWhile (· = '\n')
    if t.isEmpty then return none
    let rec go : Text → Text × Text
      | '\n' :: '\n' :: rest => ([], rest.dropWhile (· = '\n'))
      | ['\n'] => ([], [])
      | c :: rest =>
        let (front, behind) := go rest
        (c :: front, behind)
      | [] => ([], [])
    return some (go t)
  | [c] =>
    let front := t.takeWhile (· ≠ c)
    return some (front, t.drop (front.length + 1))
  | _ =>
    match regexOf separator with
    | .error message => fail message
    | .ok regex =>
      match regex.find? none t with
      | some found =>
        if found.fitted.isEmpty then return some (t, [])
        return some (found.front, found.rest)
      | none => return some (t, [])

/-- Does what an argument that sets a variable says. -/
def assignArgument (name value : Text) : Doing Unit :=
  setVariable name (.ofRead (unescaped 0 value))

/-- The name and the value in an argument that sets a variable. -/
def assignment (argument : Text) : Option (Text × Text) := do
  let (name, value) ← Text.splitFirst? '=' argument
  guard (name.head?.any fun c => c.isAlpha || c == '_')
  guard (name.all fun c => c.isAlphanum || c == '_')
  return (name, value)

/-- Opens the next file that is to be read, and says whether there is one; over at most this many
arguments. -/
def openNext : (most : Nat) → Doing Bool
  | 0 => return false
  | most + 1 => do
    let session ← get
    let count := (truncated (session.global "ARGC").toNumber).toNat
    let opened (name content : Text) : Doing Bool := do
      modify fun session =>
        { (session.withGlobal "FILENAME" (.text name)).withGlobal "FNR" (.number 0.0) with
          hasRead := true, rest? := some content }
      return true
    if count ≤ session.argument then
      if session.hasRead then return false
      return ← opened [] (← onMachine (readFrom 0))
    set { session with argument := session.argument + 1 }
    let arguments := (session.tables.lookup "ARGV".toList).getD {}
    let argument :=
      ((arguments.get? (Text.ofNat session.argument)).getD .missing).toText session.format
    if argument.isEmpty then openNext most
    else
      match assignment argument with
      | some (name, value) =>
        assignArgument name value
        openNext most
      | none =>
        if argument = "-" ∨ argument = "/dev/stdin" then
          opened argument (← onMachine (readFrom 0))
        else
          match ← onMachine (readPath argument) with
          | .ok content => opened argument content
          | .error .isFolder => fail "read error (Is a directory)"
          | .error fault => fail ("cannot open \"" ++ argument ++ "\" (" ++ fault.reason ++ ")")

/-- Adds one to a variable. -/
def countUp (name : Text) : Doing Unit :=
  modify fun session => session.withGlobal name (.number ((session.global name).toNumber + 1.0))

/-- Reads the next record of the input, over at most this many files. -/
def nextRecord : (most : Nat) → Doing (Option Text)
  | 0 => return none
  | most + 1 => do
    let session ← get
    match session.rest? with
    | some rest =>
      match ← splitRecord (session.setting "RS") rest with
      | some (record, rest) =>
        modify ({ · with rest? := some rest })
        countUp "NR"
        countUp "FNR"
        return some record
      | none =>
        modify ({ · with rest? := none })
        nextRecord most
    | none =>
      if ← openNext (most + 1) then nextRecord most else return none

def manyFiles : Nat := 10000

/-- Reads the next record from the source with a name, which is opened first if it is not open; the
source is missing if it cannot be opened. -/
def nextOf (name : Text) (opened : Doing (Option Text)) : Doing (Option (Option Text)) := do
  let rest? ←
    match (← get).sources.lookup name with
    | some rest => pure (some rest)
    | none => opened
  match rest? with
  | none => return none
  | some rest =>
    let found? ← splitRecord ((← get).setting "RS") rest
    let rest := (found?.map Prod.snd).getD []
    modify fun session =>
      { session with
        sources := (name, rest) :: session.sources.filter fun entry => entry.1 != name }
    return some (found?.map Prod.fst)

/-- What a file holds, if it can be read. -/
def fileContent (name : Text) : Doing (Option Text) := do
  if name = "-" ∨ name = "/dev/stdin" then return some (← onMachine (readFrom 0))
  match ← onMachine (readPath name) with
  | .ok content => return some content
  | .error _ => return none

end Record

end Shell

end SampleHarvest
