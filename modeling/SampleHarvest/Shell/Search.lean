import SampleHarvest.Shell.Builtin.Basic
import SampleHarvest.Shell.Grammar

/-!
# Finding commands

The name of a command is looked for among the keywords, the other names, the special commands of the
shell, the commands of the script and the other commands of the shell, in this order. What is left
is a program: a name with a slash is its path, and another one is looked for in a list of folders.
-/

namespace SampleHarvest

namespace Shell

/-- The commands of the shell that are not special. -/
def plainCommands : List Text :=
  ["alias", "bg", "cd", "chdir", "command", "echo", "false", "fg", "getopts", "hash", "jobs",
    "kill", "printf", "pwd", "read", "test", "[", "true", "type", "ulimit", "umask", "unalias",
    "wait"]

def isSpecialCommand (name : Text) : Bool :=
  reservedCommands.contains name || name == "local".toList

/-- What the name of a command stands for. -/
inductive Resolved where
  | builtin
  | function (body : Command)
  | program (path : Text)
  /-- Nothing; something of the name cannot be used, or there is nothing. -/
  | nothing (fault : DiskFault)

/-- Whether a node of a disk can be run, as far as its permissions say so. -/
def canRun (machine : Machine) (location : Location) (node : Node) : Bool :=
  !node.isFolder && Nat.land (modeOf machine location node) 0o111 != 0

/-- The place on the disk that a raw path leads to. -/
def programAt (machine : Machine) (path : Text) : Except DiskFault (Location × Node) :=
  match machine.disk.locate true (Text.ofRaw path) with
  | .error fault => .error fault
  | .ok (.vacant _ _) => .error .missing
  | .ok (.present location node) =>
    if canRun machine location node then .ok (location, node) else .error .denied

/-- The path of the program with a name in some folders. -/
def findIn (machine : Machine) (name : Text) :
    (worst : DiskFault) → List Text → Except DiskFault Text
  | worst, [] => .error worst
  | worst, folder :: folders =>
    let path := (if folder.isEmpty then ['.'] else folder) ++ ['/'] ++ name
    match programAt machine path with
    | .ok _ => .ok path
    | .error .missing => findIn machine name worst folders
    | .error .notFolder => findIn machine name worst folders
    | .error fault => findIn machine name fault folders

/-- The folders where programs are looked for if nothing else is said. -/
def usualFolders : Text := "/usr/local/sbin:/usr/local/bin:/usr/sbin:/usr/bin:/sbin:/bin"

def programPath (name : Text) : Act (Except DiskFault Text) := do
  let machine ← get
  if name.any (· == '/') then return .ok name
  let folders := (machine.process.value? "PATH").getD usualFolders
  return findIn machine name .missing (Text.splitOn ':' folders)

/-- What the name of a command stands for, with the commands of the script or without them. -/
def meaningOf (withFunctions : Bool) (name : Text) : Act Resolved := do
  if isSpecialCommand name then return .builtin
  match (← getProcess).functions.lookup name with
  | some body => if withFunctions then return .function body
  | none => pure ()
  if plainCommands.contains name then return .builtin
  match ← programPath name with
  | .ok path =>
    modifyProcess fun process =>
      if path = name ∨ process.known.contains name then process
      else { process with known := name :: process.known }
    return .program path
  | .error fault => return .nothing fault

/-- Runs the program of some words in the place of the process, or says why that is not possible. -/
def runNamed (runner : Runner) (words : List Text) : Act (Option DiskFault) := do
  match ← programPath (words.headD []) with
  | .ok path => runner.program path words
  | .error fault => return some fault

/-- Why a program cannot be run, in words. -/
def runningReason : DiskFault → Text
  | .missing => "not found"
  | .notFolder => "not found"
  | fault => fault.reason

namespace Builtin

/-- Tells in words what a name stands for, and whether it stands for anything. -/
def describe (name : Text) : Act Bool := do
  let process ← getProcess
  if keywords.contains name then
    putLine (name ++ " is a shell keyword")
    return true
  match process.aliases.lookup name with
  | some value =>
    putLine (name ++ " is an alias for " ++ value)
    return true
  | none => pure ()
  let isKnown := process.known.contains name
  match ← meaningOf true name with
  | .builtin =>
    let kind : Text := if isSpecialCommand name then "special shell builtin" else "shell builtin"
    putLine (name ++ " is a " ++ kind)
    return true
  | .function _ =>
    putLine (name ++ " is a shell function")
    return true
  | .program path =>
    match programAt (← get) path with
    | .ok _ =>
      putLine (name ++ (if isKnown then " is a tracked alias for " else " is ") ++ path)
      return true
    | .error fault =>
      if path.any (· == '/') ∧ fault = .denied then
        putLine (name ++ " is " ++ path)
        return true
      putLine (name ++ ": not found")
      return false
  | .nothing _ =>
    putLine (name ++ ": not found")
    return false

/-- Gives in one word what a name stands for, and whether it stands for anything. -/
def identify (name : Text) : Act Bool := do
  if keywords.contains name then
    putLine name
    return true
  match (← getProcess).aliases.lookup name with
  | some value =>
    putLine ("alias " ++ name ++ ['='] ++ quoted value)
    return true
  | none => pure ()
  match ← meaningOf true name with
  | .builtin =>
    putLine name
    return true
  | .function _ =>
    putLine name
    return true
  | .program path =>
    match programAt (← get) path with
    | .error .missing => return false
    | .error .notFolder => return false
    | _ =>
      putLine path
      return true
  | .nothing _ => return false

/-- Tells what names stand for. -/
def typing : Builtin := fun _ words => do
  let mut status := 0
  for name in words do
    unless ← describe name do status := 127
  return status

/-- Looks for programs, so that they are known. -/
def hash : Builtin := fun _ words =>
  withLetters ['r', 'v'] [] words fun found names => do
    if !found.isEmpty then
      modifyProcess ({ · with known := [] })
      return 0
    if names.isEmpty then
      for name in (← getProcess).known do
        match ← programPath name with
        | .ok path => putLine path
        | .error _ => pure ()
      return 0
    let mut status := 0
    for name in names do
      match ← meaningOf true name with
      | .nothing _ =>
        warn (name ++ ": not found")
        status := 1
      | _ => pure ()
    return status

/-- Shows or sets other names for commands. -/
def aliasing : Builtin := fun _ words => do
  let display (name value : Text) : Act Unit := putLine (name ++ ['='] ++ quoted value)
  let process ← getProcess
  if words.isEmpty then
    for (name, value) in process.aliases do
      display name value
    return 0
  let mut status := 0
  for word in words do
    match Text.splitFirst? '=' word with
    | some (name, value) =>
      modifyProcess fun process =>
        let others := process.aliases.filter fun entry => entry.1 != name
        { process with aliases := others ++ [(name, value)] }
    | none =>
      match (← getProcess).aliases.lookup word with
      | some value => display word value
      | none =>
        complain ("alias: " ++ word ++ " not found")
        status := 1
  return status

/-- Removes other names for commands. -/
def unaliasing : Builtin := fun _ words =>
  withLetters ['a'] [] words fun found names => do
    if !found.isEmpty then
      modifyProcess ({ · with aliases := [] })
      return 0
    let mut status := 0
    for name in names do
      let process ← getProcess
      if (process.aliases.lookup name).isNone then
        complain ("unalias: " ++ name ++ " not found")
        status := 1
      let aliases := process.aliases.filter fun entry => entry.1 != name
      modifyProcess ({ · with aliases })
    return status

end Builtin

end Shell

end SampleHarvest
