import SampleHarvest.Shell.Builtin.Basic
import SampleHarvest.Shell.Show

/-!
# Commands on surroundings

The working folder is kept as the path that led to it, in which two dots take back the step before
them. Other commands tell about limits and permissions, or print.
-/

namespace SampleHarvest

namespace Shell

namespace Builtin

/-- The path that another one leads to from a folder, without dots. -/
def plainPath (folder path : Text) : Text :=
  let parts := if path.head? = some '/' then Text.splitOn '/' path
    else Text.splitOn '/' folder ++ Text.splitOn '/' path
  let kept := parts.foldl
    (fun (kept : List Text) (part : Text) =>
      if part.isEmpty ∨ part = "." then kept
      else if part = ".." then kept.dropLast
      else kept ++ [part]) ([] : List Text)
  '/' :: Text.joinWith ['/'] kept

/-- Makes a folder the working folder, if it is one. -/
def goTo (isPhysical : Bool) (path : Text) : Act Bool := do
  let machine ← get
  let process := machine.process
  let goal := if isPhysical then path else plainPath process.folder path
  match machine.disk.locate true (Text.ofRaw goal) with
  | .ok (.present location (.folder _)) =>
    let folder := if isPhysical then Text.toRaw (pathOf location) else goal
    let withOld := process.setVariable "OLDPWD" { value? := process.folder, isExported := true }
    let withNew := withOld.setVariable "PWD" { value? := folder, isExported := true }
    set { machine with
      disk := { machine.disk with workingFolder := location }
      process := { withNew with folder } }
    return true
  | _ => return false

/-- Goes to the first folder of a name that there is below some folders. -/
def goBelow (isPhysical : Bool) (name : Text) : List Text → Act (Option Bool)
  | [] => return none
  | folder :: folders => do
    let path := if folder.isEmpty then name else folder ++ ['/'] ++ name
    match ← nodeAt path with
    | .ok (.folder _) => return if ← goTo isPhysical path then some (!folder.isEmpty) else none
    | _ => goBelow isPhysical name folders

/-- Goes to another folder. -/
def cd : Builtin := fun _ words =>
  withLetters ['L', 'P'] [] words fun found words => do
    let process ← getProcess
    let isPhysical := (found.getLast?.map Prod.fst) == some 'P'
    let isBack := words.head? == some ['-']
    let given : Text :=
      match words with
      | [] => (process.value? "HOME").getD []
      | word :: _ => if isBack then (process.value? "OLDPWD").getD [] else word
    let goal := if given.isEmpty then ['.'] else given
    let first := (Text.splitOn '/' goal).headD []
    let isFixed := goal.head? == some '/' || first == ['.'] || first == ['.', '.']
    let folders := if isFixed then [[]] else Text.splitOn ':' ((process.value? "CDPATH").getD [])
    match ← goBelow isPhysical goal folders with
    | none => refuse ("can't cd to " ++ given)
    | some isElsewhere =>
      if isBack ∨ isElsewhere then putLine (← getProcess).folder
      return 0

/-- Prints the working folder. -/
def pwd : Builtin := fun _ words =>
  withLetters ['L', 'P'] [] words fun found _ => do
    let isPhysical := (found.getLast?.map Prod.fst) == some 'P'
    let physical ← folderPath
    let process ← getProcess
    putLine (if isPhysical then physical else process.folder)
    return 0

def permissionLetters (digit : Nat) : Text :=
  (if digit / 4 % 2 = 1 then ['r'] else []) ++ (if digit / 2 % 2 = 1 then ['w'] else []) ++
    if digit % 2 = 1 then ['x'] else []

/-- Shows or sets the permissions that new files do not get. -/
def umask : Builtin := fun _ words =>
  withLetters ['S'] [] words fun found words => do
    let process ← getProcess
    match words with
    | [] =>
      let mask := process.mask
      let shown := mask / 64 * 100 + mask / 8 % 8 * 10 + mask % 8
      if found.isEmpty then putLine ('0' :: Text.zeroPadded 3 shown)
      else
        putLine ("u=" ++ permissionLetters (7 - mask / 64) ++ ",g=" ++
          permissionLetters (7 - mask / 8 % 8) ++ ",o=" ++ permissionLetters (7 - mask % 8))
      return 0
    | word :: _ =>
      if word.all fun c => '0' ≤ c && c ≤ '7' then
        let mask := word.foldl (fun n c => 8 * n + Text.digitValue c) 0
        modifyProcess ({ · with mask := mask % 512 })
        return 0
      if word.head?.any Char.isDigit then refuse ("Illegal number: " ++ word)
      else return 0

/-- Tells that there are no limits. -/
def ulimit : Builtin := fun _ words => do
  if words.all fun word => word.head? == some '-' then putLine "unlimited"
  return 0

/-- Tells how long the process has worked. -/
def times : Builtin := fun _ _ => do
  putLine "0m0.000000s 0m0.000000s"
  putLine "0m0.000000s 0m0.000000s"
  return 0

/-- Prints words, with their escapes. -/
def echo : Builtin := fun _ words => do
  match words with
  | ['-', 'n'] :: words => put (echoText false words)
  | words => put (echoText true words)
  return 0

def printf : Builtin := fun _ words =>
  withLetters [] [] words fun _ words => do
    match words with
    | [] => refuse "usage: printf format [arg ...]"
    | format :: words =>
      let (output, warnings, fault?) := printFormat format words
      for warning in warnings do
        warn warning
      put output
      match fault? with
      | some message => refuse message
      | none => return if warnings.isEmpty then 0 else 1

end Builtin

end Shell

end SampleHarvest
