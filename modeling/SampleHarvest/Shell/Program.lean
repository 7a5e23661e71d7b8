import SampleHarvest.Shell.Builtin.Variables
import SampleHarvest.Shell.Redirection
import SampleHarvest.Shell.Search
import SampleHarvest.Shell.Utilities

/-!
# Programs

A program is a file that can be run: a utility, which its file names behind a mark, or a script. The
shell is a utility too; it runs a script that is given to it as an argument, as a file or as its
input.
-/

namespace SampleHarvest

namespace Shell

/-- What the file of a utility begins with. -/
def utilityMark : Text := ['\x7f', 'E', 'L', 'F']

/-- Makes the process that of a program. -/
def becomeProgram (words : List Text) : Act Unit :=
  modifyProcess fun process =>
    { id := process.id
      name := words.headD []
      arguments := words.drop 1
      bindings := process.environment.map fun (name, value) =>
        (name, { value? := some value, isExported := true })
      descriptors := process.descriptors
      traps := process.traps.filter fun trap => trap.2.isEmpty
      outer := process.outer
      shellId := process.id
      mask := process.mask }

/-- Whether a raw path is one of the working folder. -/
def leadsHere (disk : Disk) (path : Text) : Bool :=
  match disk.locate true (Text.ofRaw path) with
  | .ok (.present location _) => path.head? == some '/' && location == disk.workingFolder
  | _ => false

/-- Gives the process the variables that a shell has. -/
def becomeShell : Act Unit := do
  let machine ← get
  let folder ← folderPath
  modifyProcess fun process =>
    let folder := ((process.value? "PWD").filter (leadsHere machine.disk)).getD folder
    let number (n : Nat) : Variable := { value? := some (Text.ofNat n) }
    let text (t : String) : Variable := { value? := some t.toList }
    let usual : List (Text × Variable) :=
      [("IFS", text " \t\n"), ("OPTIND", number 1), ("PPID", number (process.outer.headD 1)),
        ("PWD", { value? := some folder, isExported := true })]
    let prompts : List (Text × Variable) :=
      [("PS1", text "# "), ("PS2", text "> "), ("PS4", text "+ ")]
    let missing := prompts.filter fun entry => (process.value? entry.1).isNone
    let bindings := (usual ++ missing).foldl
      (fun bindings entry => entry :: bindings.filter fun other => other.1 != entry.1)
      process.bindings
    { process with bindings, folder, line := 0 }

/-- The words in front of a script without the letter for a script that is an argument, and whether
that letter stands among them. -/
def takeScriptLetter : List Text → Bool × List Text
  | [] => (false, [])
  | word :: words =>
    match word with
    | ['-', '-'] => (false, word :: words)
    | '-' :: letter :: letters =>
      let all := letter :: letters
      let isHere := all.any (· == 'c')
      let kept := all.filter (· ≠ 'c')
      let (isBehind, others) :=
        if kept.any (· == 'o') then
          match words with
          | [] => (false, [])
          | name :: words =>
            let (isBehind, others) := takeScriptLetter words
            (isBehind, name :: others)
        else takeScriptLetter words
      (isHere || isBehind, if kept.isEmpty then others else ('-' :: kept) :: others)
    | '+' :: _ :: _ =>
      let (isBehind, others) := takeScriptLetter words
      (isBehind, word :: others)
    | _ => (false, word :: words)

def runAs (runner : Runner) (mode : RunMode) (name : Text) (arguments : List Text)
    (source : Text) : Act Nat := do
  modifyProcess ({ · with name, arguments })
  let isRun ← runner.script mode source
  let process ← getProcess
  return if isRun then process.status else 0

def shell : Utility := fun runner words => do
  becomeShell
  let fail (message : Text) : Act Nat := do
    fault message
    return 2
  let (isArgument, words) := takeScriptLetter words
  match ← Builtin.takeSettings words with
  | .error message => fail message
  | .ok (words, _) =>
    let process ← getProcess
    if isArgument then
      match words with
      | [] => fail "-c requires an argument"
      | source :: words =>
        runAs runner { isLast := true } (words.headD process.name) (words.drop 1) source
    else
      match words with
      | file :: arguments =>
        if process.has 's' then runAs runner { isRead := true } process.name words (← readFrom 0)
        else
          match ← readPath file with
          | .ok source => runAs runner { isRead := true } file arguments source
          | .error .isFolder => return 0
          | .error fault => fail ("cannot open " ++ file ++ ": " ++ openingReason .reading fault)
      | [] =>
        Builtin.turn true 's'
        runAs runner { isRead := true } process.name [] (← readFrom 0)

def utility? (name : Text) : Option Utility :=
  if name = "sh" ∨ name = "dash" then some shell else utilities.lookup name

/-- Runs a utility in the place of the process. -/
def runUtility (runner : Runner) (utility : Utility) (words : List Text) : Act Unit := do
  becomeProgram words
  let status ← utility runner (words.drop 1)
  modifyProcess fun process =>
    match process.flow? with
    | some (.killed _) => process
    | some .failed => { process with flow? := some .exited }
    | some .exited => process
    | _ => { process with status := status % 256, flow? := some .exited }

/-- The interpreter in the first line of a script, with its argument. -/
def interpreter (line : Text) : List Text :=
  let line := line.takeWhile (· ≠ '\n')
  let isBlank (c : Char) : Bool := c == ' ' || c == '\t'
  let line := line.dropWhile isBlank
  let name := line.takeWhile fun c => !isBlank c
  let rest := (line.drop name.length).dropWhile isBlank
  let rest := (rest.reverse.dropWhile isBlank).reverse
  if rest.isEmpty then [name] else [name, rest]

/-- Runs the program at a path in the place of the process, over at most this many interpreters, or
says why that is not possible. -/
def runProgram (runner : Runner) : (interpreters : Nat) → (path : Text) → (words : List Text) →
    Act (Option DiskFault)
  | 0, _, _ => return some .tooManyLinks
  | interpreters + 1, path, words => do
    let machine ← get
    match programAt machine path with
    | .error fault => return some fault
    | .ok (location, _) =>
      let content := contentAt machine.disk location
      match content.after? utilityMark, content.after? "#!" with
      | some name, _ =>
        match utility? name with
        | some utility =>
          runUtility runner utility words
          return none
        | none => return some .denied
      | none, some line =>
        let lead := interpreter line
        runProgram runner interpreters (lead.headD []) (lead ++ path :: words.drop 1)
      | none, none =>
        runUtility runner shell ("/bin/sh" :: path :: words.drop 1)
        return none

end Shell

end SampleHarvest
