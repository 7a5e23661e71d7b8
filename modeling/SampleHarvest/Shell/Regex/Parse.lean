import SampleHarvest.Shell.Regex.Basic
import SampleHarvest.Text.Decimal

/-!
# Regular expressions as texts

There are two ways of writing: in the basic way groups, alternatives and bounds have backslashes, in
the extended way they have none. A star that has nothing to repeat stands for itself, and in the
basic way so do the signs for the start and the end of a text inside an expression.
-/

namespace SampleHarvest

namespace Shell

namespace Regex

/-- How an expression is written. -/
structure Style where
  isExtended : Bool
  isFolded : Bool := false
  escapesInSets : Bool := false
  isStrict : Bool := false
  /-- Whether the signs for the start and the end of the text fit at those of lines too. -/
  hasLines : Bool := false

/-- What is left of an expression. -/
structure Source where
  rest : Text
  groups : Nat := 0
  closed : List Nat := []

/-- Reads something from an expression. -/
abbrev Reader := StateT Source (Except Text)

def refuse (reason : Text) : Reader α := StateT.lift (.error reason)

def goOn (rest : Text) : Reader Unit := modify fun source => { source with rest }

def Style.set (style : Style) (set : CharacterSet) : Regex :=
  .one (if style.isFolded then set.folded else set)

def Style.single (style : Style) (c : Char) : Regex := style.set (.single c)

/-- The expression of the start of a text. -/
def Style.start (style : Style) : Regex :=
  .place (if style.hasLines then .lineStart else .textStart)

def Style.stop (style : Style) : Regex := .place (if style.hasLines then .lineEnd else .textEnd)

/-- The refusal of a sign that has nothing to repeat. -/
def nothingToRepeat : Text := "Invalid preceding regular expression"

/-- The refusal of a class without brackets around it. -/
def bareClass : Text := "character class syntax is [[:space:]], not [:space:]"

/-- The refusal of a set without an end. -/
def openSet : Text := "Unmatched [, [^, [:, [., or [="

/-- Reads the ranges of a set up to its closing bracket, at most this many. -/
def ranges (style : Style) : (most : Nat) → (isFirst : Bool) → Reader (List (Char × Char))
  | 0, _ => refuse openSet
  | most + 1, isFirst => do
    let add (found : List (Char × Char)) (rest : Text) : Reader (List (Char × Char)) := do
      goOn rest
      return found ++ (← ranges style most false)
    match (← get).rest with
    | [] => refuse openSet
    | '[' :: ':' :: t =>
      match classAt? ('[' :: ':' :: t) with
      | some (found, rest) => add found rest
      | none =>
        if Text.contains t [':', '\x5d'] then refuse "Invalid character class name"
        refuse openSet
    | '[' :: sign :: c :: d :: '\x5d' :: t =>
      if (sign = '=' ∨ sign = '.') ∧ d = sign then add [(c, c)] t
      else add [('[', '[')] (sign :: c :: d :: '\x5d' :: t)
    | c :: t =>
      if c = '\x5d' ∧ !isFirst then
        goOn t
        return []
      let (low, t) : Char × Text :=
        match c, t with
        | '\\', d :: rest => if style.escapesInSets then (d, rest) else (c, t)
        | c, t => (c, t)
      match t with
      | '-' :: '\x5d' :: _ => add [(low, low)] t
      | '-' :: high :: t =>
        let (high, t) : Char × Text :=
          match high, t with
          | '\\', d :: rest => if style.escapesInSets then (d, rest) else (high, t)
          | high, t => (high, t)
        if high < low then refuse "Invalid range end"
        add [(low, high)] t
      | t => add [(low, low)] t

/-- Whether a set begins and ends with a colon, as if it were a class. -/
def isBareClass (t : Text) : Bool :=
  match t with
  | ':' :: t =>
    let inner := t.takeWhile (· ≠ '\x5d')
    1 < inner.length && inner.length < t.length && inner.getLast? == some ':'
  | _ => false

/-- Reads a set behind its opening bracket. -/
def bracket (style : Style) : Reader Regex := do
  let t := (← get).rest
  if t.isEmpty ∨ t = "^" then refuse "Invalid regular expression"
  if isBareClass t ∧ !style.escapesInSets then refuse bareClass
  match t with
  | '^' :: t =>
    goOn t
    return style.set ⟨true, ← ranges style (t.length + 1) true⟩
  | t => return style.set ⟨false, ← ranges style (t.length + 1) true⟩

def wordSet : CharacterSet := { ranges := [('0', '9'), ('A', 'Z'), ('_', '_'), ('a', 'z')] }

def blankSet : CharacterSet := { ranges := [('\t', '\x0d'), (' ', ' ')] }

/-- What a letter behind a backslash stands for. -/
def letter? (style : Style) (c : Char) : Option Regex :=
  match c with
  | 'w' => some (.one wordSet)
  | 'W' => some (.one wordSet.inverted)
  | 's' => some (.one blankSet)
  | 'S' => some (.one blankSet.inverted)
  | 'b' => some (.place .wordEdge)
  | 'B' => some (.place .noWordEdge)
  | '<' => some (.place .wordStart)
  | '>' => some (.place .wordEnd)
  | '\x27' => some (.place .textEnd)
  | c =>
    if c.toNat = 0x60 then some (.place .textStart)
    else if c.isDigit then none
    else some (style.single c)

/-- Reads what a backslash begins, besides groups, alternatives and bounds. -/
def escape (style : Style) (c : Char) (rest : Text) : Reader Regex := do
  match letter? style c with
  | some found =>
    goOn rest
    return found
  | none =>
    let number := Text.digitsValue 0 [c]
    unless (← get).closed.contains number do refuse "Invalid back reference"
    goOn rest
    return .same number

/-- The sign at the front of a text that repeats what stands before it, with what follows it. -/
def repetition? (style : Style) : Text → Option (Nat × Option Nat × Text)
  | '*' :: t => some (0, none, t)
  | '+' :: t => if style.isExtended then some (1, none, t) else none
  | '?' :: t => if style.isExtended then some (0, some 1, t) else none
  | '\\' :: '+' :: t => if style.isExtended then none else some (1, none, t)
  | '\\' :: '?' :: t => if style.isExtended then none else some (0, some 1, t)
  | _ => none

/-- The bounds behind an opening brace, with what follows the closing one. -/
def bounds? (style : Style) (t : Text) : Option (Nat × Option Nat × Text) := do
  let low := t.takeWhile Char.isDigit
  let t := t.drop low.length
  let least := Text.digitsValue 0 low
  let closing : Text := if style.isExtended then ['\x7d'] else ['\\', '\x7d']
  match t with
  | ',' :: t =>
    let high := t.takeWhile Char.isDigit
    let rest ← Text.after? (t.drop high.length) closing
    return (least, if high.isEmpty then none else some (Text.digitsValue 0 high), rest)
  | t =>
    guard !low.isEmpty
    return (least, some least, ← Text.after? t closing)

/-- Whether a text begins with a sign that repeats what stands before it. -/
def repeats (style : Style) (t : Text) : Bool :=
  (repetition? style t).isSome || (style.isExtended && t.head? == some '\x7b')

/-- What is left of an extended expression behind the signs that have nothing to repeat, at most
this many. -/
def skipRepetitions (style : Style) : (most : Nat) → Text → Text
  | 0, t => t
  | most + 1, t =>
    match repetition? style t with
    | some (_, _, rest) => skipRepetitions style most rest
    | none =>
      match (t.after? ['\x7b']).bind (bounds? style) with
      | some (_, _, rest) => skipRepetitions style most rest
      | none => t

/-- Reads the repetitions behind an expression, at most this many. -/
def repetitions (style : Style) : (most : Nat) → Regex → Reader Regex
  | 0, inner => return inner
  | most + 1, inner => do
    let t := (← get).rest
    let braced? : Option Text := t.after? (if style.isExtended then ['\x7b'] else ['\\', '\x7b'])
    match repetition? style t, braced? with
    | some (least, most?, rest), _ =>
      goOn rest
      repetitions style most (.repeated inner least most?)
    | none, some t =>
      match bounds? style t with
      | some (least, most?, rest) =>
        if most?.any (· < least) then refuse "Invalid content of \\\x7b\\\x7d"
        goOn rest
        repetitions style most (.repeated inner least most?)
      | none =>
        if style.isExtended ∧ !style.isStrict then return inner
        if t.any (· == '\x7d') then refuse "Invalid content of \\\x7b\\\x7d"
        refuse "Unmatched \\\x7b"
    | none, none => return inner

/-- Whether alternatives end at the front of a text. -/
def endsBranch (style : Style) (isInGroup : Bool) : Text → Bool
  | [] => true
  | '|' :: _ => style.isExtended
  | ')' :: _ => style.isExtended && (isInGroup || style.isStrict)
  | '\\' :: '|' :: _ => !style.isExtended
  | '\\' :: ')' :: _ => !style.isExtended
  | _ => false

/-- What is left behind the sign between alternatives. -/
def afterBar? (style : Style) (t : Text) : Option Text :=
  t.after? (if style.isExtended then ['|'] else ['\\', '|'])

/-- What is read next. -/
inductive Goal where
  | alternatives (isInGroup : Bool)
  /-- The rest of an alternative; it is told whether nothing stands before. -/
  | branch (isInGroup isFirst : Bool)
  | atom (isInGroup isFirst : Bool)

/-- Reads an expression, with at most this many steps inside each other. -/
def read (style : Style) : (steps : Nat) → Goal → Reader Regex
  | 0, _ => refuse "Regular expression too big"
  | steps + 1, .alternatives isInGroup => do
    let first ← read style steps (.branch isInGroup true)
    match afterBar? style (← get).rest with
    | some rest =>
      goOn rest
      return .either first (← read style steps (.alternatives isInGroup))
    | none => return first
  | steps + 1, .branch isInGroup isFirst => do
    if endsBranch style isInGroup (← get).rest then return .empty
    let atom ← read style steps (.atom isInGroup isFirst)
    let isStart : Bool :=
      match atom with
      | .place .textStart => true
      | .place .lineStart => true
      | _ => false
    let isPlace : Bool :=
      match atom with
      | .place _ => true
      | _ => false
    if isPlace ∧ style.isExtended ∧ style.isStrict ∧ repeats style (← get).rest then
      refuse nothingToRepeat
    let first ←
      if isStart ∧ !style.isExtended then pure atom
      else repetitions style ((← get).rest.length + 1) atom
    match ← read style steps (.branch isInGroup (isStart && isFirst)) with
    | .empty => return first
    | second => return .sequence first second
  | steps + 1, .atom isInGroup isFirst => do
    let group (rest : Text) : Reader Regex := do
      let source ← get
      let number := source.groups + 1
      set { source with rest, groups := number }
      let inner ← read style steps (.alternatives true)
      let closing : Text := if style.isExtended then [')'] else ['\\', ')']
      match Text.after? (← get).rest closing with
      | some rest =>
        modify fun source => { source with rest, closed := number :: source.closed }
        return .group number inner
      | none => refuse "Unmatched ( or \\("
    match (← get).rest with
    | [] => return .empty
    | '(' :: t =>
      if style.isExtended then group t
      else
        goOn t
        return style.single '('
    | '[' :: t =>
      goOn t
      bracket style
    | '.' :: t =>
      goOn t
      return .one .all
    | '^' :: t =>
      goOn t
      return if style.isExtended ∨ isFirst then style.start else style.single '^'
    | '$' :: t =>
      goOn t
      return if style.isExtended ∨ endsBranch style isInGroup t then style.stop
        else style.single '$'
    | ['\\'] => refuse "Trailing backslash"
    | '\\' :: c :: t =>
      if !style.isExtended ∧ c = '(' then group t
      else if !style.isExtended ∧ c = ')' then refuse "Unmatched ) or \\)"
      else if !style.isExtended ∧ c = '\x7b' then
        goOn t
        return style.single '\x7b'
      else escape style c t
    | c :: t =>
      if style.isExtended ∧ isFirst ∧ repeats style (c :: t) then
        if style.isStrict then refuse nothingToRepeat
        let rest := skipRepetitions style (t.length + 1) (c :: t)
        if rest.length ≤ t.length then
          goOn rest
          return ← read style steps (.branch isInGroup isFirst)
      goOn t
      return style.single c

def parse (style : Style) (t : Text) : Except Text Regex := do
  let (found, source) ← (read style (6 * t.length + 8) (.alternatives false)).run { rest := t }
  match source.rest with
  | [] => return found
  | _ => throw "Unmatched ) or \\)".toList

end Regex

end Shell

end SampleHarvest
