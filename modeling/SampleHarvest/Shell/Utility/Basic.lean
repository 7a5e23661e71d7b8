import SampleHarvest.Shell.Process
import SampleHarvest.Text.Lines

/-!
# Utilities

A utility is a program that comes with the machine. It gets its arguments, reads and prints like any
process, and gives its status at the end. What it says about a failure begins with its name.

Most options are letters behind a minus sign, some of them with a value; others are names behind two
minus signs, which may be cut short. Options may stand behind operands unless the utility says that
they may not.
-/

namespace SampleHarvest

namespace Shell

/-- A utility, which gives its status. -/
abbrev Utility := Runner → List Text → Act Nat

namespace Utility

/-- Says something in the name of the utility. -/
def say (message : Text) : Act Unit := do complain ((← getProcess).name ++ ": " ++ message)

/-- Says something in the name of the utility, and where there is help. -/
def sayUsage (message : Text) : Act Unit := do
  say message
  complain ("Try '" ++ (← getProcess).name ++ " --help' for more information.")

/-- Says why the utility cannot go on, and gives the status of a failure. -/
def abort (message : Text) (status : Nat := 1) : Act Nat := do
  say message
  return status

/-- Says that the utility is used in a wrong way, and gives the status of a failure. -/
def misuse (message : Text) (status : Nat := 1) : Act Nat := do
  sayUsage message
  return status

def quoted (t : Text) : Text := '\x27' :: (t ++ ['\x27'])

/-- An option with a name: the letter that stands for it, and whether it has a value. -/
structure LongOption where
  name : Text
  letter : Char
  hasValue : Bool := false

/-- The options that a utility knows. -/
structure Knowledge where
  flags : Text := []
  valued : Text := []
  names : List LongOption := []
  endsAtOperand : Bool := false

/-- The options and operands that were given. -/
structure Given where
  options : List (Char × Text) := []
  operands : List Text := []

namespace Given

def has (given : Given) (letter : Char) : Bool := given.options.any fun entry => entry.1 == letter

def values (given : Given) (letter : Char) : List Text :=
  given.options.filterMap fun entry => if entry.1 = letter then some entry.2 else none

def value? (given : Given) (letter : Char) : Option Text := (given.values letter).getLast?

def last? (given : Given) (letters : Text) : Option Char :=
  (given.options.filterMap fun entry =>
    if letters.any (· == entry.1) then some entry.1 else none).getLast?

end Given

/-- The letters of a group, with the values that they have, and whether the last one needs the next
word as its value. -/
def readGroup (knowledge : Knowledge) : Text → Except Text (List (Char × Text) × Option Char)
  | [] => .ok ([], none)
  | c :: rest =>
    if knowledge.flags.any (· == c) then do
      let (others, open?) ← readGroup knowledge rest
      return ((c, []) :: others, open?)
    else if knowledge.valued.any (· == c) then
      if rest.isEmpty then .ok ([], some c) else .ok ([(c, rest)], none)
    else .error ("invalid option -- " ++ quoted [c])

/-- The option that a name or the beginning of one stands for. -/
def findName (knowledge : Knowledge) (name : Text) : Except Text LongOption :=
  match knowledge.names.find? fun entry => entry.name = name with
  | some found => .ok found
  | none =>
    match knowledge.names.filter fun entry => entry.name.startsWith name with
    | [found] => .ok found
    | [] => .error ("unrecognized option " ++ quoted ("--" ++ name))
    | found :: others =>
      if others.all fun other => other.letter = found.letter then .ok found
      else
        .error ("option " ++ quoted ("--" ++ name) ++ " is ambiguous; possibilities:" ++
          (found :: others).flatMap fun other => ' ' :: quoted ("--" ++ other.name))

/-- What a word among the arguments is. -/
inductive Role where
  | operand
  | ending
  /-- Options, of which the last one may need the next word as its value, or else this is said. -/
  | options (found : List (Char × Text)) (open? : Option (Char × Text))

/-- What a word among the arguments is. -/
def roleOf (knowledge : Knowledge) (word : Text) : Except Text Role :=
  match word with
  | ['-', '-'] => .ok .ending
  | '-' :: '-' :: long => do
    let (name, value?) : Text × Option Text :=
      match Text.splitFirst? '=' long with
      | some (name, value) => (name, some value)
      | none => (long, none)
    let found ← findName knowledge name
    let shown := quoted ("--" ++ found.name)
    match found.hasValue, value? with
    | true, some value => return .options [(found.letter, value)] none
    | true, none =>
      return .options [] (some (found.letter, "option " ++ shown ++ " requires an argument"))
    | false, some _ => throw ("option " ++ shown ++ " doesn't allow an argument")
    | false, none => return .options [(found.letter, [])] none
  | '-' :: c :: group => do
    let (found, open?) ← readGroup knowledge (c :: group)
    let missing (c : Char) : Text := "option requires an argument -- " ++ quoted [c]
    return .options found (open?.map fun c => (c, missing c))
  | _ => .ok .operand

/-- Tells options and operands apart. -/
def parseOptions (knowledge : Knowledge) : List Text → Except Text Given
  | [] => .ok {}
  | word :: words =>
    match roleOf knowledge word with
    | .error message => .error message
    | .ok .ending => .ok { operands := words }
    | .ok .operand =>
      if knowledge.endsAtOperand then .ok { operands := word :: words }
      else
        (parseOptions knowledge words).map fun given =>
          { given with operands := word :: given.operands }
    | .ok (.options found none) =>
      (parseOptions knowledge words).map fun given =>
        { given with options := found ++ given.options }
    | .ok (.options found (some (c, missing))) =>
      match words with
      | [] => .error missing
      | value :: words =>
        (parseOptions knowledge words).map fun given =>
          { given with options := found ++ (c, value) :: given.options }

/-- Goes on with the options and operands among some words. -/
def withOptions (knowledge : Knowledge) (words : List Text) (act : Given → Act Nat)
    (status : Nat := 1) : Act Nat := do
  match parseOptions knowledge words with
  | .ok given => act given
  | .error message => misuse message status

/-- What a utility reads from an operand; a minus sign stands for its input. -/
def readOperand (operand : Text) : Act (Except DiskFault Text) := do
  if operand = "-" then return .ok (← readFrom 0) else readPath operand

/-- The operands that name what is read: the input if there are none. -/
def inputs (operands : List Text) : List Text := if operands.isEmpty then [['-']] else operands

/-- Reads operands one after the other and does something with each. One that cannot be read is
spoken of, and the status becomes that of a failure. -/
def eachInput (lead : Text) (act : Text → Text → Act Unit) : (status : Nat) → List Text → Act Nat
  | status, [] => return status
  | status, operand :: operands => do
    match ← readOperand operand with
    | .ok content =>
      act operand content
      eachInput lead act status operands
    | .error fault =>
      say (lead ++ operand ++ ": " ++ fault.reason)
      eachInput lead act 1 operands

/-- What all operands hold, one after the other, with the status. -/
def readAll (lead : Text) : (status : Nat) → List Text → Act (Text × Nat)
  | status, [] => return ([], status)
  | status, operand :: operands => do
    match ← readOperand operand with
    | .ok content =>
      let (others, status) ← readAll lead status operands
      return (content ++ others, status)
    | .error fault =>
      say (lead ++ operand ++ ": " ++ fault.reason)
      readAll lead 1 operands

def linesOf (t : Text) : List Text :=
  (splitLines t).map fun line => if Text.endsWith line "\n" then line.dropLast else line

def joinLines (lines : List Text) : Text := lines.flatMap fun line => line ++ ['\n']

end Utility

end Shell

end SampleHarvest
