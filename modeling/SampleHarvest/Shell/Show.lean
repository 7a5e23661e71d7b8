import SampleHarvest.Shell.Format
import SampleHarvest.Shell.Machine

/-!
# Printing texts

A format is gone through as often as it takes to use up the arguments, and once if there are none.
An argument that is missing counts as an empty text. What is wrong with an argument is said, and
printing goes on; what is wrong with the format ends it.
-/

namespace SampleHarvest

namespace Shell

/-- How far printing by a format has come. -/
structure Printing where
  arguments : List Text
  pieces : List Text := []
  warnings : List Text := []

/-- Prints by a format; it ends early with a message, or because an argument says so. -/
abbrev Printer := ExceptT (Option Text) (StateM Printing)

namespace Printer

def add (t : Text) : Printer Unit :=
  modify fun printing => { printing with pieces := t :: printing.pieces }

/-- Takes the next argument. -/
def next : Printer Text := do
  match (← get).arguments with
  | [] => return []
  | argument :: arguments =>
    modify ({ · with arguments })
    return argument

/-- Says what is wrong with an argument, if something is. -/
def note (argument : Text) (defect? : Option NumberDefect) : Printer Unit := do
  match defect? with
  | some defect =>
    modify fun printing =>
      { printing with warnings := (argument ++ ": " ++ defect.message) :: printing.warnings }
  | none => return

/-- Takes the next argument as a whole number. -/
def nextInteger (isSigned : Bool) : Printer Int := do
  let argument ← next
  let (n, defect?) := argumentInteger isSigned argument
  note argument defect?
  return n

/-- The number that a place gives for a width or a precision. -/
def number (given : FormatNumber) : Printer (Option Int) := do
  match given with
  | .absent => return none
  | .given n => return some n
  | .argument => return some (← nextInteger true)

/-- Prints an argument in a place. -/
def place (flags : Text) (width precision : FormatNumber) (conversion : Char) (written : Text) :
    Printer Unit := do
  let width := (← number width).getD 0
  let precision? := (← number precision).bind fun n => if n < 0 then none else some n.toNat
  let flags := if width < 0 then '-' :: flags else flags
  let specifier : Specifier := { flags, width := width.natAbs, precision?, conversion }
  if conversion = 's' then add (specifier.showText (← next))
  else if conversion = 'c' then add (specifier.pad [(← next).headD '\x00'])
  else if conversion = 'b' then
    let argument ← next
    let (shown, isCut) := unescape .shown (argument.length + 1) argument
    add (specifier.showText shown)
    if isCut then throw none
  else if conversion = 'd' ∨ conversion = 'i' then
    add (specifier.showInteger (← nextInteger true))
  else if "ouxX".toList.contains conversion then
    add (specifier.showInteger (← nextInteger false))
  else if "eEfFgG".toList.contains conversion then
    let argument ← next
    let (x, defect?) := argumentFloat argument
    note argument defect?
    add (specifier.showFloat x)
  else throw (some (written ++ ": invalid directive"))

def pieces : List FormatPiece → Printer Unit
  | [] => return
  | .text t :: others => do
    add (unescape .format (t.length + 1) t).1
    pieces others
  | .place flags width precision conversion written :: others => do
    place flags width precision conversion written
    pieces others
  | .unfinished _ :: _ => throw (some "missing format character".toList)

/-- Prints the pieces of a format again and again, at most this often. -/
def rounds (format : List FormatPiece) : (most : Nat) → Printer Unit
  | 0 => return
  | most + 1 => do
    let before := (← get).arguments.length
    pieces format
    let behind := (← get).arguments.length
    if 0 < behind ∧ behind < before then rounds format most

end Printer

/-- What is printed by a format, what is wrong with arguments, and what is wrong with the format. -/
def printFormat (format : Text) (arguments : List Text) : Text × List Text × Option Text :=
  let printer := Printer.rounds (formatPieces (format.length + 1) format) (arguments.length + 1)
  let (result, printing) := (ExceptT.run printer).run { arguments }
  let fault? : Option Text :=
    match result with
    | .error fault? => fault?
    | .ok _ => none
  (printing.pieces.reverse.flatten, printing.warnings.reverse, fault?)

/-- What is printed for arguments with escapes, and whether an escape ended it. -/
def joinUnescaped : List Text → Text × Bool
  | [] => ([], false)
  | argument :: arguments =>
    let (first, isCut) := unescape .shown (argument.length + 1) argument
    if isCut ∨ arguments.isEmpty then (first, isCut)
    else
      let (others, isCut) := joinUnescaped arguments
      (first ++ ' ' :: others, isCut)

/-- The line that is printed for arguments with escapes, with a line end or without one. -/
def echoText (hasEnd : Bool) (arguments : List Text) : Text :=
  let (t, isCut) := joinUnescaped arguments
  if hasEnd ∧ !isCut then t ++ ['\n'] else t

end Shell

end SampleHarvest
