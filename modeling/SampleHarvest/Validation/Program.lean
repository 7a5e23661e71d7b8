import SampleHarvest.Disk.Basic
import SampleHarvest.Shell.Signal
import SampleHarvest.Validation.Basic

/-!
# Validation programs

A validation program runs in a scratch folder that holds nothing but the candidate. In its arguments
two placeholders stand for the path of the candidate and for the folder. It accepts by ending with
status zero; otherwise what it printed is the reason, or how it ended if it printed nothing.

A program that takes as long as its limit, or longer, rejects. One that cannot be started is a
failure. What a program does is not said here: the system that runs it is a parameter.
-/

namespace SampleHarvest

/-- How a program ended. -/
inductive Ending where
  | exited (status : Nat)
  | killed (signal : Nat)
  deriving DecidableEq, Repr

/-- How a program ended, in words. -/
def Ending.text : Ending → Text
  | .exited status => "exit status: " ++ Text.ofNat status
  | .killed signal =>
    let name : Text :=
      match Shell.Signal.named.find? fun found => found.number = signal with
      | some found => " (SIG" ++ found.name ++ ")"
      | none => []
    "signal: " ++ Text.ofNat signal ++ name

/-- What is known of a program that was run. -/
structure Completion where
  ending : Ending
  output : Bytes
  errors : Bytes
  /-- The milliseconds until it ended, and with it all that could still print. -/
  time : Nat
  deriving DecidableEq, Repr

/-- A system runs the program of some words in the working folder of a disk, or tells why it cannot
be started. It may stop a program that takes longer than the limit in milliseconds. -/
abbrev System := List Text → Disk → Option Nat → Except Text Completion

structure Program where
  name : Text
  arguments : List Text
  /-- How many milliseconds it may take. -/
  limit? : Option Nat
  deriving DecidableEq, Repr

namespace Program

def scratchName : Text := "exemplar-validate-AbCdEf"

def scratchFolder : Path := "/tmp/" ++ scratchName

def scratchFile (folder : Path) (candidate : Candidate) : Path :=
  Path.join folder candidate.scratchName

/-- What stands for the path of the candidate. -/
def filePlaceholder : Text := "\x7bfile\x7d"

/-- What stands for the scratch folder. -/
def folderPlaceholder : Text := "\x7bdir\x7d"

/-- An argument with the placeholders replaced, the one for the candidate first. -/
def fillIn (folder : Path) (candidate : Candidate) (argument : Text) : Text :=
  Text.replaceAll folderPlaceholder folder
    (Text.replaceAll filePlaceholder (scratchFile folder candidate) argument)

/-- What is wrong with words that no program can be started with. -/
def wordFault? (words : List Text) : Option Text :=
  if words.any fun t => t.any (· == '\x00') then some "nul byte found in provided data" else none

/-- What is known of the program when it has been run, or why it cannot be started. -/
def start (program : Program) (system : System) (arguments : List Text) (disk : Disk) :
    Except Text Completion :=
  match wordFault? (program.name :: arguments) with
  | some reason => .error reason
  | none => system (program.name :: arguments) disk program.limit?

/-- The reason that a program gives: its output and its errors, on separate lines. -/
def diagnostics (program : Program) (completion : Completion) : Text :=
  let output := Utf8.decodeLossy completion.output
  let errors := Utf8.decodeLossy completion.errors
  let between : Text := if errors.isEmpty then [] else output.lineEndFor
  let all := output ++ between ++ errors
  if all.trim.isEmpty then program.name ++ " exited with " ++ completion.ending.text else all

/-- The answer of a program that has been run. -/
def verdict (program : Program) (completion : Completion) : Verdict :=
  match program.limit?.filter fun limit => limit ≤ completion.time with
  | some limit =>
    .reject ("validation timed out after " ++ Text.ofNat (limit / 1000) ++ "s")
  | none =>
    if completion.ending = .exited 0 then .accept else .reject (program.diagnostics completion)

/-- The answer of a program that is run with these arguments when a candidate has been written to
this file. -/
def answer (program : Program) (system : System) (arguments : List Text) (disk : Disk) (file : Path)
    (candidate : Candidate) : Except Failure Verdict :=
  match disk.writeText file candidate.content with
  | .error fault => .error (.io fault)
  | .ok disk =>
    match program.start system arguments disk with
    | .error reason =>
      .error (.validation ("failed to run " ++ program.name ++ ": " ++ reason))
    | .ok completion => .ok (program.verdict completion)

/-- The oracle that asks a program in a scratch folder, where the disk has its working folder. -/
def oracleIn (program : Program) (system : System) (folder : Path) (disk : Disk) : Oracle :=
  fun candidate =>
    program.answer system (program.arguments.map (fillIn folder candidate)) disk
      (scratchFile folder candidate) candidate

end Program

end SampleHarvest
