import SampleHarvest.Shell.Edit.Basic
import SampleHarvest.Shell.Regex.Parse

/-!
# Editing scripts as texts

A script can be given in parts. What is wrong with a part is said with its number and with how many
characters of it have been read, or with the name of the file and the line.

A backslash makes a letter stand for a character that is hard to write, everywhere in a script.
-/

namespace SampleHarvest

namespace Shell

namespace Edit

structure Part where
  source : Text
  file? : Option Text := none

/-- What is left of a part of a script. -/
structure Source where
  rest : Text
  passed : Nat := 0
  lines : Nat := 0
  number : Nat
  file? : Option Text := none
  opened : List Nat := []
  isExtended : Bool

/-- Reads something from a part of a script. -/
abbrev Reader := StateT Source (Except Text)

/-- Where something is wrong with a part that is given as an argument. -/
def partPlace (number passed : Nat) : Text :=
  "-e expression #" ++ Text.ofNat number ++ ", char " ++ Text.ofNat passed ++ ": "

namespace Reader

/-- Refuses a script, with the place. -/
def refuse (reason : Text) : Reader α := do
  let source ← get
  let place : Text :=
    match source.file? with
    | some file => "file " ++ file ++ " line " ++ Text.ofNat (source.lines + 1) ++ ": "
    | none => partPlace source.number source.passed
  StateT.lift (.error (place ++ reason))

def next : Reader (Option Char) := do
  match (← get).rest with
  | [] => return none
  | c :: rest =>
    modify fun source =>
      { source with
        rest
        passed := source.passed + 1
        lines := if c = '\n' then source.lines + 1 else source.lines }
    return some c

def ahead : Reader (Option Char) := do return (← get).rest.head?

/-- Reads the characters at the front that a test allows. -/
def takeWhile (test : Char → Bool) : Reader Text := do
  let found := (← get).rest.takeWhile test
  for _ in found do
    let _ ← next
  return found

def skipBlanks : Reader Unit := do
  let _ ← takeWhile fun c => c == ' ' || c == '\t'

/-- Reads a number; without a digit it is zero. -/
def number : Reader Nat := do return Text.digitsValue 0 (← takeWhile Char.isDigit)

/-- Reads the end of an instruction. -/
def finish : Reader Unit := do
  skipBlanks
  match ← ahead with
  | none => return
  | some c =>
    if c = '\x7d' ∨ c = '#' then return
    let _ ← next
    unless c = '\n' ∨ c = ';' do refuse "extra characters after command"

end Reader

open Reader

/-- How far a set in brackets goes, without its opening bracket: it and what is behind it. -/
def splitSet (t : Text) : Text × Text :=
  let lead : Text := if t.head? == some '^' then ['^'] else []
  let t := t.drop lead.length
  let lead := if t.head? == some '\x5d' then lead ++ ['\x5d'] else lead
  let t := if t.head? == some '\x5d' then t.drop 1 else t
  let rec go : (isInClass : Bool) → Text → Text × Text
    | _, [] => ([], [])
    | true, ':' :: '\x5d' :: t =>
      let (front, rest) := go false t
      (':' :: '\x5d' :: front, rest)
    | true, c :: t =>
      let (front, rest) := go true t
      (c :: front, rest)
    | false, '[' :: ':' :: t =>
      let (front, rest) := go true t
      ('[' :: ':' :: front, rest)
    | false, c :: t =>
      if c = '\x5d' then ([c], t)
      else
        let (front, rest) := go false t
        (c :: front, rest)
  let (front, rest) := go false t
  (lead ++ front, rest)

/-- The text up to a separator, which is read too; a backslash before the separator is left out. In
an expression a separator between brackets does not count. There is none if the line or the part of
the script ends before. -/
def delimited (separator : Char) (isRegex : Bool) : (most : Nat) → Reader (Option Text)
  | 0 => return none
  | most + 1 => do
    match ← ahead with
    | none => return none
    | some c =>
      if c = '\n' ∧ isRegex then return none
      let _ ← next
      if c = separator then return some []
      let add (t : Text) : Reader (Option Text) := do
        return (← delimited separator isRegex most).map (t ++ ·)
      if c = '\\' then
        match ← next with
        | none => return none
        | some d =>
          if d = 'n' ∧ isRegex ∧ d ≠ separator then add ['\n']
          else if d = separator ∧ (isRegex || d != '&') then add [d]
          else add [c, d]
      else if c = '[' ∧ isRegex then
        let (set, _) := splitSet (← get).rest
        for _ in set do
          let _ ← next
        let set := Text.replaceAll ['\\', 'n'] ['\n'] set
        add (c :: set)
      else add [c]

/-- A character as a number gives it; one that has a meaning gets a backslash. -/
def coded (n : Nat) : Text :=
  let c := Char.ofNat (n % 256)
  if "$*./&^[\\]".toList.any (· == c) then ['\\', c] else [c]

def digitsIn (base : Nat) (digits : Text) : Nat :=
  digits.foldl (fun n c =>
    n * base + if c.isDigit then c.toNat - 48 else c.toLower.toNat - 87) 0

def isHexDigit (c : Char) : Bool := c.isDigit || ('a' ≤ c.toLower && c.toLower ≤ 'f')

/-- The character that a letter behind a backslash stands for. -/
def control? (c : Char) : Option Char :=
  if c = 'a' then some '\x07'
  else if c = 'f' then some '\x0c'
  else if c = 'n' then some '\n'
  else if c = 'r' then some '\x0d'
  else if c = 't' then some '\t'
  else if c = 'v' then some '\x0b'
  else none

/-- A text in which characters that are hard to write have replaced what stands for them; `skip`
characters at the front are passed over. -/
def plain : (skip : Nat) → Text → Text
  | _, [] => []
  | skip + 1, _ :: t => plain skip t
  | 0, '\\' :: c :: t =>
    let digits (most : Nat) (test : Char → Bool) : Text := (t.take most).takeWhile test
    let isOctal (d : Char) : Bool := d.isDigit && d < '8'
    let numbered (base : Nat) (digits : Text) : Text :=
      if digits.isEmpty then '\\' :: c :: plain 0 t
      else coded (digitsIn base digits) ++ plain digits.length t
    match control? c with
    | some found => found :: plain 0 t
    | none =>
      if c = 'x' then numbered 16 (digits 2 isHexDigit)
      else if c = 'o' then numbered 8 (digits 3 isOctal)
      else if c = 'd' then numbered 10 (digits 3 Char.isDigit)
      else if c = 'c' then
        match t with
        | d :: _ => coded (Nat.xor d.toUpper.toNat 64) ++ plain 1 t
        | [] => ['\\', c]
      else '\\' :: c :: plain 0 t
  | 0, c :: t => c :: plain 0 t

/-- The expression that a text is; an empty one is the one that was used last. -/
def regex (isFolded hasLines : Bool) (t : Text) : Reader (Option Regex) := do
  if t.isEmpty then return none
  let isExtended := (← get).isExtended
  match Regex.parse { isExtended, isFolded, hasLines, isStrict := true } (plain 0 t) with
  | .ok found => return some found
  | .error reason =>
    if reason = Regex.bareClass then StateT.lift (.error reason) else refuse reason

/-- Reads the letters behind the expression of a place. -/
def regexLetters : (most : Nat) → (isFolded hasLines : Bool) → Reader (Bool × Bool)
  | 0, isFolded, hasLines => return (isFolded, hasLines)
  | most + 1, isFolded, hasLines => do
    skipBlanks
    match ← ahead with
    | some 'I' =>
      let _ ← next
      regexLetters most true hasLines
    | some 'M' =>
      let _ ← next
      regexLetters most isFolded true
    | _ => return (isFolded, hasLines)

def regexPlace (separator : Char) : Reader Place := do
  let most := (← get).rest.length + 1
  match ← delimited separator true most with
  | none => refuse "unterminated address regex"
  | some t =>
    let (isFolded, hasLines) ← regexLetters most false false
    return .fits (← regex isFolded hasLines t)

/-- Reads where a range ends, or a line, if there is one. -/
def stop? : Reader (Option Stop) := do
  let place (place : Place) : Option Stop := some (.place place)
  match ← ahead with
  | none => return none
  | some c =>
    if c.isDigit then
      let n ← number
      skipBlanks
      match ← ahead with
      | some '~' =>
        let _ ← next
        skipBlanks
        let step ← number
        return place (if step = 0 then .number n else .step n step)
      | _ => return place (.number n)
    else if c = '+' ∨ c = '~' then
      let _ ← next
      skipBlanks
      let n ← number
      return some (if c = '+' then .behind n else .multiple n)
    else if c = '$' then
      let _ ← next
      return place .last
    else if c = '/' then
      let _ ← next
      return place (← regexPlace '/')
    else if c = '\\' then
      let _ ← next
      match ← next with
      | none => refuse "unterminated address regex"
      | some separator => return place (← regexPlace separator)
    else return none

/-- Reads which lines are meant. -/
def scope : Reader Scope := do
  match ← stop? with
  | none => return .every
  | some (.place first) =>
    skipBlanks
    let isFromZero : Bool :=
      match first with
      | .number 0 => true
      | _ => false
    match ← ahead with
    | some ',' =>
      let _ ← next
      skipBlanks
      match ← stop? with
      | none => refuse "unexpected `,'"
      | some stop =>
        let isRegex : Bool :=
          match stop with
          | .place (.fits _) => true
          | _ => false
        if isFromZero ∧ !isRegex then
          skipBlanks
          let _ ← next
          refuse "invalid usage of line address 0"
        return .range first stop
    | _ =>
      if isFromZero then
        let _ ← next
        refuse "invalid usage of line address 0"
      return .lines first
  | some _ => refuse "invalid usage of +N or ~N as first address"

def pieces : Text → List Piece
  | [] => []
  | '&' :: t => .group 0 :: pieces t
  | '\\' :: c :: t =>
    if c.isDigit then .group (c.toNat - 48) :: pieces t
    else if "LUlEu".toList.any (· == c) then .casing c :: pieces t
    else .text [c] :: pieces t
  | c :: t => .text [c] :: pieces t

/-- The highest number of a group that pieces name. -/
def highestGroup (pieces : List Piece) : Nat :=
  pieces.foldl (fun highest piece =>
    match piece with
    | .group n => max highest n
    | _ => highest) 0

/-- Reads the rest of a line as the name of a file. -/
def fileName : Reader Text := do
  skipBlanks
  let name ← takeWhile (· ≠ '\n')
  let _ ← next
  if name.isEmpty then
    refuse "missing filename in r/R/w/W commands"
  return name

/-- Reads the letters behind a replacement; gives it with whether letters are folded, whether lines
count and whether it has a number. -/
def replacementLetters : (most : Nat) → Replacement → (isFolded hasLines hasNumber : Bool) →
    Reader (Replacement × Bool × Bool)
  | 0, found, isFolded, hasLines, _ => return (found, isFolded, hasLines)
  | most + 1, found, isFolded, hasLines, hasNumber => do
    let c? ← ahead
    match c? with
    | none => return (found, isFolded, hasLines)
    | some c =>
      if c = '\x7d' ∨ c = '#' then return (found, isFolded, hasLines)
      if c.isDigit then
        if hasNumber then
          let _ ← next
          refuse "multiple number options to `s' command"
        if c = '0' then
          let _ ← next
          refuse "number option to `s' command may not be zero"
        let first ← number
        replacementLetters most { found with first } isFolded hasLines true
      else
        let _ ← next
        if c = '\n' ∨ c = ';' then return (found, isFolded, hasLines)
        else if c = ' ' then replacementLetters most found isFolded hasLines hasNumber
        else if c = 'i' ∨ c = 'I' then replacementLetters most found true hasLines hasNumber
        else if c = 'm' ∨ c = 'M' then replacementLetters most found isFolded true hasNumber
        else if c = 'g' then
          if found.isGlobal then refuse "multiple `g' options to `s' command"
          replacementLetters most { found with isGlobal := true } isFolded hasLines hasNumber
        else if c = 'p' then
          if found.prints then refuse "multiple `p' options to `s' command"
          replacementLetters most { found with prints := true } isFolded hasLines hasNumber
        else if c = 'w' then
          let file ← fileName
          return ({ found with file? := some file }, isFolded, hasLines)
        else refuse "unknown option to `s'"

def replacement : Reader Action := do
  let most := (← get).rest.length + 1
  let unterminated : Reader Action := refuse "unterminated `s' command"
  match ← next with
  | none => unterminated
  | some separator =>
    match ← delimited separator true most with
    | none => unterminated
    | some pattern =>
      match ← delimited separator false most with
      | none => unterminated
      | some inserted =>
        let pieces := pieces (plain 0 inserted)
        let (found, isFolded, hasLines) ←
          replacementLetters most { regex? := none, pieces } false false false
        let regex? ← regex isFolded hasLines pattern
        match regex? with
        | some regex =>
          let highest := highestGroup pieces
          if regex.groupCount < highest then
            refuse ("invalid reference \\" ++ Text.ofNat highest ++ " on `s' command's RHS")
        | none => pure ()
        return .replace { found with regex? }

/-- The characters of a text in which a backslash stands for itself behind a backslash. -/
def characters : Text → Text
  | '\\' :: '\\' :: t => '\\' :: characters t
  | c :: t => c :: characters t
  | [] => []

def characterTable : Reader Action := do
  let most := (← get).rest.length + 1
  let unterminated : Reader Action := refuse "unterminated `y' command"
  match ← next with
  | none => unterminated
  | some separator =>
    match ← delimited separator false most with
    | none => unterminated
    | some olds =>
      match ← delimited separator false most with
      | none => unterminated
      | some news =>
        let olds := characters (plain 0 olds)
        let news := characters (plain 0 news)
        if olds.length ≠ news.length then
          refuse "strings for `y' command are different lengths"
        finish
        return .replaceCharacters (olds.zip news)

def unquoted : Text → Text
  | '\\' :: c :: t => c :: unquoted t
  | ['\\'] => []
  | c :: t => c :: unquoted t
  | [] => []

/-- Reads a line and every line behind it that a backslash joins to it. -/
def joinedLines : (most : Nat) → Reader Text
  | 0 => return []
  | most + 1 => do
    match ← next with
    | none => return []
    | some '\n' => return []
    | some '\\' =>
      match ← next with
      | none => return []
      | some c => return '\\' :: c :: (← joinedLines most)
    | some c => return c :: (← joinedLines most)

def printedText : Reader Text := do
  let most := (← get).rest.length + 1
  skipBlanks
  match ← ahead with
  | none => refuse "expected \\ after `a', `c' or `i'"
  | some '\\' =>
    let _ ← next
    let blanks ← takeWhile fun c => c == ' ' || c == '\t'
    match ← ahead with
    | none => return []
    | some '\n' =>
      let _ ← next
      if (← ahead).isNone then return []
      return unquoted (plain 0 (← joinedLines most)) ++ ['\n']
    | some c =>
      let _ ← next
      let lead := blanks ++ [c]
      return unquoted (plain 0 (lead ++ (← joinedLines most))) ++ ['\n']
  | some _ => return unquoted (plain 0 (← joinedLines most)) ++ ['\n']

/-- Reads a name for a place. -/
def label : Reader Text := do
  skipBlanks
  takeWhile fun c => !Text.isRawBlank c && c != ';' && c != '\x7d'

/-- Reads a number behind an instruction, if there is one, and the end of the instruction. -/
def number? : Reader (Option Nat) := do
  skipBlanks
  let found? ←
    if (← ahead).any Char.isDigit then some <$> number
    else pure none
  finish
  return found?

/-- Reads an instruction behind the lines that it is meant for; there is none for a comment. -/
def action (scope : Scope) : Reader (Option Action) := do
  let isEvery : Bool :=
    match scope with
    | .every => true
    | _ => false
  let isRange : Bool :=
    match scope with
    | .range _ _ => true
    | _ => false
  let plainly (action : Action) : Reader (Option Action) := do
    finish
    return some action
  match ← next with
  | none => refuse "missing command"
  | some c =>
    match c with
    | '#' =>
      unless isEvery do refuse "comments don't accept any addresses"
      let _ ← takeWhile (· ≠ '\n')
      return none
    | '\x7b' =>
      modify fun source => { source with opened := source.number :: source.opened }
      return some .openBrace
    | '\x7d' =>
      match (← get).opened with
      | [] => refuse "unexpected `\x7d'"
      | _ :: opened =>
        unless isEvery do refuse "`\x7d' doesn't want any addresses"
        modify ({ · with opened })
        plainly .closeBrace
    | ':' =>
      unless isEvery do refuse ": doesn't want any addresses"
      let name ← label
      if name.isEmpty then refuse "\":\" lacks a label"
      return some (.label name)
    | 'b' => return some (.jump .always (← label))
    | 't' => return some (.jump .replaced (← label))
    | 'T' => return some (.jump .unchanged (← label))
    | 'a' => return some (.append (← printedText))
    | 'i' => return some (.insert (← printedText))
    | 'c' => return some (.change (← printedText))
    | 'd' => plainly .delete
    | 'D' => plainly .deleteFirst
    | 'h' => plainly (.keep false)
    | 'H' => plainly (.keep true)
    | 'g' => plainly (.recall false)
    | 'G' => plainly (.recall true)
    | 'x' => plainly .exchange
    | 'n' => plainly .next
    | 'N' => plainly .nextMore
    | 'p' => plainly (.print false)
    | 'P' => plainly (.print true)
    | '=' => plainly .printNumber
    | 'F' => plainly .printName
    | 'z' => plainly .clear
    | 'l' => return some (.display (← number?))
    | 'q' =>
      if isRange then refuse "command only uses one address"
      return some (.quit true ((← number?).getD 0))
    | 'Q' =>
      if isRange then refuse "command only uses one address"
      return some (.quit false ((← number?).getD 0))
    | 'r' => return some (.read (← fileName) false)
    | 'R' => return some (.read (← fileName) true)
    | 'w' => return some (.write (← fileName) false)
    | 'W' => return some (.write (← fileName) true)
    | 's' => return some (← replacement)
    | 'y' => return some (← characterTable)
    | 'v' =>
      let _ ← label
      return none
    | c => refuse ("unknown command: `" ++ [c, '\x27'])

/-- Reads instructions up to the end of a part of a script, at most this many. -/
def instructions : (most : Nat) → Reader (List Instruction)
  | 0 => return []
  | most + 1 => do
    let _ ← takeWhile fun c => c == ';' || Text.isRawBlank c
    if (← ahead).isNone then return []
    let scope ← scope
    skipBlanks
    let isInverted := (← ahead) == some '!'
    if isInverted then
      let _ ← next
      skipBlanks
      if (← ahead) == some '!' then
        let _ ← next
        refuse "multiple `!'s"
    match ← action scope with
    | none => instructions most
    | some action => return ⟨scope, isInverted, action⟩ :: (← instructions most)

/-- Whether a part ends with a backslash that the next part belongs behind. -/
def isOpen (source : Text) : Bool := (source.reverse.takeWhile (· == '\\')).length % 2 == 1

/-- The parts, with those joined that belong together. -/
def joinParts : List Part → List Part
  | [] => []
  | part :: parts =>
    match joinParts parts with
    | [] => [part]
    | next :: others =>
      if isOpen part.source ∧ part.file?.isNone ∧ next.file?.isNone then
        { part with source := part.source ++ '\n' :: next.source } :: others
      else part :: next :: others

/-- The instructions of the parts of a script, of which the first one has this number; braces have
been opened in some parts before. -/
def parseParts (isExtended : Bool) : (number : Nat) → (opened : List Nat) → List Part →
    Except Text (List Instruction)
  | _, [], [] => .ok []
  | _, number :: _, [] => .error (partPlace number 0 ++ "unmatched `\x7b'")
  | number, opened, part :: parts => do
    let source : Source := { rest := part.source, number, file? := part.file?, opened, isExtended }
    let (found, source) ← (instructions (part.source.length + 1)).run source
    return found ++ (← parseParts isExtended (number + 1) source.opened parts)

def parse (isExtended : Bool) (parts : List Part) : Except Text (List Instruction) :=
  parseParts isExtended 1 [] (joinParts parts)

/-- A name that is led to although no instruction has it. -/
def missingLabel? (script : List Instruction) : Option Text :=
  (jumpNames script).find? fun name => (labelIndex? name script).isNone

end Edit

end Shell

end SampleHarvest
