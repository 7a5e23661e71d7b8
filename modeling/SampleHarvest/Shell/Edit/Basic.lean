import SampleHarvest.Shell.Regex.Basic

/-!
# Editing scripts

An editing script is a list of instructions that are followed for each line of a text. An
instruction says for which lines it is meant and what is done with the line, which can be changed,
kept for later or printed.

Instructions in braces are a part of the list: the opening brace is an instruction that is followed
by the ones behind the closing brace where its lines do not fit.
-/

namespace SampleHarvest

namespace Shell

namespace Edit

/-- Which line is meant. -/
inductive Place where
  | number (n : Nat)
  | last
  | fits (regex? : Option Regex)
  | step (first step : Nat)

/-- Where a range of lines ends. -/
inductive Stop where
  | place (place : Place)
  | behind (count : Nat)
  | multiple (n : Nat)

/-- Which lines are meant. -/
inductive Scope where
  | every
  | lines (place : Place)
  | range (first : Place) (stop : Stop)

/-- A piece of the text that is put in for another one. -/
inductive Piece where
  | text (t : Text)
  /-- What a group has fitted; the group with the number 0 is the whole. -/
  | group (number : Nat)
  /-- From here on letters become capitals or small ones, as a letter says. -/
  | casing (letter : Char)

/-- How texts in a line are replaced. -/
structure Replacement where
  /-- What is replaced: what an expression fits, or the one that was used last. -/
  regex? : Option Regex
  pieces : List Piece
  first : Nat := 1
  isGlobal : Bool := false
  prints : Bool := false
  file? : Option Text := none

/-- When an instruction leads elsewhere. -/
inductive Jump where
  | always
  | replaced
  | unchanged
  deriving DecidableEq

/-- What is done with a line. -/
inductive Action where
  | openBrace
  | closeBrace
  /-- Nothing; the place has a name. -/
  | label (name : Text)
  | jump (condition : Jump) (name : Text)
  | append (t : Text)
  | insert (t : Text)
  | change (t : Text)
  | delete
  /-- The first line of the text is left out, and the instructions are followed for the rest. -/
  | deleteFirst
  | keep (isMore : Bool)
  | recall (isMore : Bool)
  | exchange
  | next
  | nextMore
  | print (isFirst : Bool)
  | printNumber
  | printName
  | display (width? : Option Nat)
  /-- Editing ends with a status; the line is printed or not. -/
  | quit (prints : Bool) (status : Nat)
  | read (file : Text) (isLine : Bool)
  | write (file : Text) (isFirst : Bool)
  | replace (replacement : Replacement)
  | replaceCharacters (table : List (Char × Char))
  | clear

structure Instruction where
  scope : Scope
  isInverted : Bool
  action : Action

/-- The index behind the closing brace that an opening brace before some instructions belongs to. -/
def behindBrace : (depth index : Nat) → List Instruction → Nat
  | _, index, [] => index
  | depth, index, instruction :: rest =>
    match instruction.action, depth with
    | .closeBrace, 0 => index + 1
    | .closeBrace, depth + 1 => behindBrace depth (index + 1) rest
    | .openBrace, depth => behindBrace (depth + 1) (index + 1) rest
    | _, depth => behindBrace depth (index + 1) rest

def labelIndex? (name : Text) (script : List Instruction) : Option Nat :=
  script.findIdx? fun instruction =>
    match instruction.action with
    | .label other => other = name
    | _ => false

def jumpNames (script : List Instruction) : List Text :=
  script.filterMap fun instruction =>
    match instruction.action with
    | .jump _ name => if name.isEmpty then none else some name
    | _ => none

def writtenFiles (script : List Instruction) : List Text :=
  script.filterMap fun instruction =>
    match instruction.action with
    | .write file _ => some file
    | .replace replacement => replacement.file?
    | _ => none

end Edit

end Shell

end SampleHarvest
