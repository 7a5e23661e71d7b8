import SampleHarvest.Shell.Arithmetic
import SampleHarvest.Shell.Pattern
import SampleHarvest.Shell.Process

/-!
# Expansion

A word becomes any number of fields. What is to be put in is put in first; what came in without
quotes is then cut at the separators, and what looks like a pattern is replaced by the paths that
fit it.

In between a word is a row of pieces: characters that say whether they may be cut and have a meaning
in patterns, and marks that say where fields end or that there is one.
-/

namespace SampleHarvest

namespace Shell

/-- A piece of a word that has been put together. -/
inductive Piece where
  | character (value : Char) (isActive isCut : Bool)
  | border
  | presence
  | absence
  deriving DecidableEq, Repr

namespace Piece

def ofText (isQuoted : Bool) (t : Text) : List Piece :=
  t.map fun c => .character c (!isQuoted) (!isQuoted)

/-- The pieces of several texts with borders between them. -/
def ofTexts (isQuoted : Bool) (texts : List Text) : List Piece :=
  let each := texts.map fun t => (if isQuoted then [presence] else []) ++ ofText isQuoted t
  match each with
  | [] => if isQuoted then [absence] else []
  | first :: others => first ++ others.flatMap (border :: ·)

/-- The text of pieces where nothing is cut. -/
def text (pieces : List Piece) : Text :=
  pieces.filterMap fun piece =>
    match piece with
    | character c _ _ => some c
    | border => some ' '
    | _ => none

/-- The pattern of pieces where nothing is cut. -/
def field (pieces : List Piece) : Field :=
  pieces.filterMap fun piece =>
    match piece with
    | character c isActive _ => some (c, isActive)
    | border => some (' ', false)
    | _ => none

end Piece

/-- The fields of a word as far as they have been put together. -/
structure Fields where
  complete : List Field := []
  current? : Option Field := none
  /-- Whether a blank ended the last field, so that a separator behind it ends no further one. -/
  isBehindBlank : Bool := false

namespace Fields

/-- Ends the field that goes on. -/
def close (fields : Fields) : Fields :=
  match fields.current? with
  | none => fields
  | some field => { fields with complete := field.reverse :: fields.complete, current? := none }

def add (separators : Text) (fields : Fields) : Piece → Fields
  | .presence => { fields with current? := some (fields.current?.getD []) }
  | .absence => fields
  | .border => { fields.close with isBehindBlank := false }
  | .character c isActive isCut =>
    if !isCut ∨ separators.all (· != c) then
      { fields with
        current? := some ((c, isActive) :: fields.current?.getD [])
        isBehindBlank := false }
    else if c = ' ' ∨ c = '\t' ∨ c = '\n' then
      if fields.current?.isSome then { fields.close with isBehindBlank := true } else fields
    else if fields.current?.isSome then { fields.close with isBehindBlank := false }
    else if fields.isBehindBlank then { fields with isBehindBlank := false }
    else { fields with complete := [] :: fields.complete }

def ofPieces (separators : Text) (pieces : List Piece) : List Field :=
  let isEmpty := pieces.contains .absence &&
    pieces.all fun piece => piece == .absence || piece == .presence
  if isEmpty then [] else (pieces.foldl (add separators) {}).close.complete.reverse

end Fields

/-- The characters at which fields are cut. -/
def separators : Act Text := do return ((← getProcess).value? "IFS").getD [' ', '\t', '\n']

/-- What stands between arguments that are put together. -/
def joint : Act Text := do
  match (← getProcess).value? "IFS" with
  | none => return [' ']
  | some t => return t.take 1

def parameterValue? (name : Text) : Act (Option Text) := do
  let process ← getProcess
  let joint ← joint
  let joined (joint : Text) : Option Text :=
    if process.arguments.isEmpty then none else some (Text.joinWith joint process.arguments)
  return match name with
    | ['?'] => some (Text.ofNat process.status)
    | ['$'] => some (Text.ofNat process.shellId)
    | ['!'] => process.lastJob?.map Text.ofNat
    | ['#'] => some (Text.ofNat process.arguments.length)
    | ['-'] => some ("pubaCEVvxsnmiIfe".toList.filter process.has)
    | ['@'] => joined [' ']
    | ['*'] => joined joint
    | name =>
      match Text.toNat? name with
      | some (n + 1) => process.arguments[n]?
      | some 0 => some process.name
      | none => process.value? name

def dropLineEnds (t : Text) : Text := (t.reverse.dropWhile (· = '\n')).reverse

def endings : Text → List Text
  | [] => [[]]
  | c :: t => (c :: t) :: endings t

/-- A text without the part that a pattern takes away. -/
def trim (side : Side) (pattern : List Wildcard) (t : Text) : Text :=
  let lengths := List.range (t.length + 1)
  match side with
  | .shortFront =>
    match lengths.find? fun n => fits pattern (t.take n) with
    | some n => t.drop n
    | none => t
  | .longFront =>
    match lengths.reverse.find? fun n => fits pattern (t.take n) with
    | some n => t.drop n
    | none => t
  | .shortEnd =>
    match (endings t).reverse.find? (fits pattern) with
    | some ending => t.take (t.length - ending.length)
    | none => t
  | .longEnd =>
    match (endings t).find? (fits pattern) with
    | some ending => t.take (t.length - ending.length)
    | none => t

def evaluateText (t : Text) : Act Text := do
  let process ← getProcess
  let refuse (reason : Text) : Act Text := do
    fault ("arithmetic expression: " ++ reason ++ ": \"" ++ t ++ "\"")
    return []
  match Arithmetic.parse t with
  | .error reason => refuse reason
  | .ok expression =>
    match Arithmetic.evaluate process.value? expression [] with
    | .ok (n, set) =>
      for (name, value) in set.reverse do
        assign name (Text.ofInt value)
      return Text.ofInt n
    | .error (.expression reason) => refuse reason
    | .error (.illegalNumber value) =>
      fault ("Illegal number: " ++ value)
      return []

/-- The home folders of the users of the machine. -/
def homes : Act (List (Text × Text)) := do
  match ← readPath "/etc/passwd" with
  | .error _ => return []
  | .ok content =>
    return (Text.splitOn '\n' content).filterMap fun line =>
      match Text.splitOn ':' line with
      | name :: _ :: _ :: _ :: _ :: home :: _ => some (name, home)
      | _ => none

/-- What a text behind a tilde becomes, if it begins with nothing or with the name of a user. -/
def afterTilde? (home? : Option Text) (homes : List (Text × Text)) (isValue isLast : Bool)
    (t : Text) : Option (List Part) := do
  let user := t.takeWhile fun c => c != '/' && !(isValue && c == ':')
  let rest := t.drop user.length
  guard (isLast || !rest.isEmpty)
  let home ← if user.isEmpty then home? else homes.lookup user
  return [.text true home, .text false rest]

/-- Puts home folders in the place of a tilde at the front of a word, and behind colons too in the
value of an assignment. -/
def withHome (isValue : Bool) (word : List Part) : Act (List Part) := do
  let hasTilde := word.any fun part =>
    match part with
    | .text false t => t.any (· == '~')
    | _ => false
  if !hasTilde then return word
  let expand := afterTilde? ((← getProcess).value? "HOME") (← homes) isValue
  let front : List Part :=
    match word with
    | .text false ('~' :: t) :: parts => (expand parts.isEmpty t).elim word (· ++ parts)
    | _ => word
  if !isValue then return front
  return front.flatMap fun part =>
    match part with
    | .text false t =>
      match Text.splitOn ':' t with
      | [] => [part]
      | first :: others =>
        Part.text false first :: others.flatMap fun t =>
          let colon : Part := .text false [':']
          match t with
          | '~' :: behind => colon :: (expand true behind).getD [.text false t]
          | t => [colon, .text false t]
    | part => [part]

def valuePieces (isQuoted : Bool) (name value : Text) : Act (List Piece) := do
  let process ← getProcess
  if name = "@" ∨ (name = "*" ∧ !isQuoted) then
    return Piece.ofTexts isQuoted process.arguments
  return Piece.ofText isQuoted value

def missingPieces (isQuoted : Bool) (name : Text) : List Piece :=
  if name = "@" then Piece.ofTexts isQuoted [] else []

/-- Fails because a parameter is not set, if that counts. -/
def checkSet (name : Text) : Act Unit := do
  if (← getProcess).has 'u' ∧ name ≠ "@" ∧ name ≠ "*" then fault (name ++ ": parameter not set")

/-- The pieces of a parameter. `expand` expands words inside it. -/
def parameterPieces (expand : List Part → Act (List Piece)) (isQuoted : Bool) (name : Text)
    (use : Use) : Act (List Piece) := do
  let value? ← parameterValue? name
  match use with
  | .value =>
    match value? with
    | some value => valuePieces isQuoted name value
    | none =>
      checkSet name
      return missingPieces isQuoted name
  | .size =>
    if value?.isNone then checkSet name
    return Piece.ofText isQuoted (Text.ofNat (value?.getD []).length)
  | .trimmed side pattern =>
    match value? with
    | some value =>
      let pattern := Piece.field (← expand pattern)
      return Piece.ofText isQuoted (trim side pattern.wildcards value)
    | none =>
      checkSet name
      return []
  | .invalid =>
    fault "Bad substitution"
    return []
  | .withDefault coversEmpty fallback word =>
    let value? := if coversEmpty then value?.filter fun value => !value.isEmpty else value?
    match value?, fallback with
    | some _, .replace => expand word
    | none, .replace => return []
    | some value, _ => valuePieces isQuoted name value
    | none, .substitute => expand word
    | none, .assign =>
      let value := Piece.text (← expand word)
      if isName name then
        assign name value
        return Piece.ofText isQuoted value
      fault (name ++ ": bad variable name")
      return []
    | none, .complain =>
      let said := Piece.text (← expand word)
      let usual : Text :=
        if coversEmpty then "parameter not set or null" else "parameter not set"
      fault (name ++ ": " ++ if said.isEmpty then usual else said)
      return []

mutual

/-- The pieces of a part of a word. Characters that stand for themselves can be cut if `cuts` says
so. -/
def partPieces (runner : Runner) (cuts : Bool) : Part → Act (List Piece)
  | .text isQuoted t => do
    if t.isEmpty then return if isQuoted then [.presence] else []
    return t.map fun c => .character c (!isQuoted) (cuts && !isQuoted)
  | .parameter isQuoted name use => usePieces runner isQuoted name use
  | .output isQuoted command? => do
    match command? with
    | none => return []
    | some command =>
      let (output, innerStatus) ← outputOf runner (runner.command { isLast := true } command)
      modifyProcess ({ · with innerStatus })
      return Piece.ofText isQuoted (dropLineEnds (output.filter (· ≠ '\x00')))
  | .number isQuoted expression => do
    let pieces ← wordPieces runner false expression
    if ← isStopped then return []
    return Piece.ofText isQuoted (← evaluateText (Piece.text pieces))

def usePieces (runner : Runner) (isQuoted : Bool) (name : Text) : Use → Act (List Piece)
  | .value => parameterPieces (fun _ => return []) isQuoted name .value
  | .size => parameterPieces (fun _ => return []) isQuoted name .size
  | .invalid => parameterPieces (fun _ => return []) isQuoted name .invalid
  | .trimmed side pattern =>
    parameterPieces (fun _ => wordPieces runner false pattern) isQuoted name (.trimmed side [])
  | .withDefault coversEmpty fallback word =>
    parameterPieces (fun _ => wordPieces runner (!isQuoted) word) isQuoted name
      (.withDefault coversEmpty fallback [])

def wordPieces (runner : Runner) (cuts : Bool) : List Part → Act (List Piece)
  | [] => return []
  | part :: parts => do
    let first ← partPieces runner cuts part
    if ← isStopped then return first
    return first ++ (← wordPieces runner cuts parts)

end

def expandWord (runner : Runner) (word : Word) : Act (List Text) := do
  let pieces ← wordPieces runner false (← withHome false word)
  let fields := Fields.ofPieces (← separators) pieces
  let machine ← get
  if machine.process.has 'f' then return fields.map Field.text
  return fields.flatMap (Field.paths machine.disk)

def expandWords (runner : Runner) : List Word → Act (List Text)
  | [] => return []
  | word :: words => do
    let first ← expandWord runner word
    if ← isStopped then return first
    return first ++ (← expandWords runner words)

/-- The text that a word stands for where nothing is cut. -/
def expandText (runner : Runner) (word : Word) (isValue : Bool := false) : Act Text := do
  return Piece.text (← wordPieces runner false (← withHome isValue word))

/-- The pattern that a word stands for where nothing is cut. -/
def expandPattern (runner : Runner) (word : Word) : Act (List Wildcard) := do
  return (Piece.field (← wordPieces runner false (← withHome false word))).wildcards

end Shell

end SampleHarvest
