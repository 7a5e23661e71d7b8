import SampleHarvest.Shell.Expansion

/-!
# Redirections

What the descriptors of a process lead to is changed for one command, or for all that follow. The
words in redirections are put in before the first file is opened.
-/

namespace SampleHarvest

namespace Shell

/-- What a descriptor is to lead to, with all words put in. -/
inductive Goal where
  | opened (opening : Opening) (path : Text)
  | same (descriptor : Text)
  | here (content : Text)
  deriving DecidableEq, Repr

/-- Puts in the words of a redirection. -/
def expandTarget (runner : Runner) : Target → Act Goal
  | .input file => Goal.opened .reading <$> expandText runner file
  | .output file => Goal.opened .writing <$> expandText runner file
  | .append file => Goal.opened .appending <$> expandText runner file
  | .both file => Goal.opened .updating <$> expandText runner file
  | .same _ descriptor => Goal.same <$> expandText runner descriptor
  | .here content => do return Goal.here (Piece.text (← wordPieces runner false content))

/-- Why a file cannot be opened, in words. -/
def openingReason (opening : Opening) (fault : DiskFault) : Text :=
  match fault with
  | .missing => if opening = .reading then "No such file" else "Directory nonexistent"
  | .notFolder => if opening = .reading then "No such file" else "Directory nonexistent"
  | fault => fault.reason

/-- Opens a file for a redirection, or says why that is not possible. -/
def openGoal (opening : Opening) (path : Text) : Act (Option Nat) := do
  let isKept := (← getProcess).has 'C' && opening == .writing
  if isKept then
    if let .ok (.file _) ← nodeAt path then
      if deviceDescriptor? path = none ∧ path ≠ "/dev/null" then
        warn ("cannot create " ++ path ++ ": File exists")
        return none
  match ← openPath opening path with
  | .ok number => return some number
  | .error fault =>
    let action : Text := if opening = .reading then "open " else "create "
    warn ("cannot " ++ action ++ path ++ ": " ++ openingReason opening fault)
    return none

/-- Lets a descriptor lead to its goal, and says whether that was possible. -/
def redirectOne (descriptor : Nat) (goal : Goal) : Act Bool := do
  match goal with
  | .opened opening path =>
    match ← openGoal opening path with
    | some number =>
      setDescriptor descriptor (some number)
      return true
    | none => return false
  | .same word =>
    if word = "-" then
      setDescriptor descriptor none
      return true
    match word with
    | [digit] =>
      if digit.isDigit then
        match ← streamOf? (Text.digitValue digit) with
        | some number =>
          setDescriptor descriptor (some number)
          return true
        | none =>
          warn (word ++ ": Bad file descriptor")
          return false
    | _ => pure ()
    fault "Syntax error: Bad fd number"
    return false
  | .here content =>
    setDescriptor descriptor (some (← addStream (.pipe content)))
    return true

/-- Puts in the words of redirections. -/
def expandTargets (runner : Runner) : List Redirection → Act (List (Nat × Goal))
  | [] => return []
  | (descriptor, target) :: redirections => do
    let goal ← expandTarget runner target
    if ← isStopped then return []
    return (descriptor, goal) :: (← expandTargets runner redirections)

/-- Lets descriptors lead to their goals, up to the first for which that is not possible. -/
def redirectAll : List (Nat × Goal) → Act Bool
  | [] => return true
  | (descriptor, goal) :: goals => do
    if ← redirectOne descriptor goal then redirectAll goals else return false

/-- Carries out redirections, and says whether that was possible. -/
def redirect (runner : Runner) (redirections : List Redirection) : Act Bool := do
  let goals ← expandTargets runner redirections
  if ← isStopped then return false
  redirectAll goals

/-- Runs something with redirections, which are taken back behind it; without them, if they are not
possible, the status is that of a failure. -/
def redirecting (runner : Runner) (redirections : List Redirection) (act : Act Unit) :
    Act Unit := do
  if redirections.isEmpty then act
  else
    let before ← get
    if ← redirect runner redirections then act
    else unless ← isStopped do setStatus 2
    modifyProcess ({ · with descriptors := before.process.descriptors })
    dropStreams before.streams.length

end Shell

end SampleHarvest
