import SampleHarvest.Shell.Syntax
import SampleHarvest.Text.Decimal

/-!
# Words and tokens

A script is cut into tokens: words, operators, redirections and line ends. A word goes on through
quotes and through everything that is put in for it; what is between parentheses behind a dollar
sign is read by the reader of commands.

The text of a here-document is taken out of the script where the document is announced, so that the
rest of the line goes on as if it were not there.
-/

namespace SampleHarvest

namespace Shell

/-- Why a script cannot be read. -/
structure SyntaxFault where
  line : Nat
  reason : Text
  deriving DecidableEq, Repr

/-- An operator before the target of a redirection. -/
inductive Arrow where
  | input
  | output
  | append
  | both
  | sameInput
  | sameOutput
  /-- To read from a here-document, of which tabs at the front of lines are left out or not. -/
  | here (dropsTabs : Bool)
  deriving DecidableEq, Repr

/-- A piece of a script. -/
inductive Token where
  | endOfFile
  | lineEnd
  | word (word : Word)
  | keyword (name : Text)
  | operator (name : Text)
  | redirection (descriptor : Nat) (arrow : Arrow)

/-- A token as it is named in a message. -/
def Token.shown : Token → Text
  | endOfFile => "end of file"
  | lineEnd => "newline"
  | word _ => "word"
  | keyword name => '\x22' :: (name ++ ['\x22'])
  | operator name => '\x22' :: (name ++ ['\x22'])
  | redirection _ _ => "redirection"

def Token.isOperator (name : Text) : Token → Bool
  | operator other => name == other
  | _ => false

def Token.isKeyword (name : Text) : Token → Bool
  | keyword other => name == other
  | _ => false

/-- The words with a meaning of their own. -/
def keywords : List Text :=
  ["!", "case", "do", "done", "elif", "else", "esac", "fi", "for", "if", "in", "then", "until",
    "while", "\x7b", "\x7d"]

/-- What is left of a script. -/
structure Source where
  rest : Text
  line : Nat
  /-- How many lines were taken out behind the line. -/
  owed : Nat := 0
  ahead? : Option Token := none

/-- Reads something from a script. -/
abbrev Reader := StateT Source (Except SyntaxFault)

def refuse (reason : Text) : Reader α := do throw ⟨(← get).line, reason⟩

/-- Refuses a token in whose place another one was needed. -/
def unexpected (token : Token) (wanted? : Option Text := none) : Reader α :=
  let expecting : Text :=
    match wanted? with
    | some wanted => " (expecting " ++ wanted ++ ")"
    | none => []
  refuse (token.shown ++ " unexpected" ++ expecting)

/-- Goes on with this text on the same line. -/
def goOn (rest : Text) : Reader Unit := modify fun source => { source with rest }

/-- Goes on behind a line end. -/
def goOnLine (rest : Text) : Reader Unit :=
  modify fun source => { source with rest, line := source.line + 1 + source.owed, owed := 0 }

/-- Goes on behind a text that holds line ends or not. -/
def goOnBehind (passed rest : Text) : Reader Unit :=
  modify fun source => { source with rest, line := source.line + passed.count '\n' }

/-- The mark around commands whose output is meant, besides parentheses. -/
def isGrave (c : Char) : Bool := c.toNat == 0x60

/-- How the characters of a word are read. -/
inductive Mode where
  | bare
  | quoted
  | braced (isQuoted : Bool)
  | here
  | number (isOpen : Nat)
  deriving DecidableEq, Repr

/-- Whether characters stand for themselves as between double quotes. -/
def Mode.isQuoted : Mode → Bool
  | bare => false
  | quoted => true
  | braced isQuoted => isQuoted
  | here => true
  | number _ => true

def endsWord (c : Char) : Bool :=
  c == ' ' || c == '\t' || c == '\n' || c == ';' || c == '&' || c == '|' || c == '(' || c == ')' ||
    c == '<' || c == '>'

/-- Whether a character has no meaning of its own anywhere. -/
def isPlain (c : Char) : Bool :=
  !endsWord c && !isGrave c && c != '\x22' && c != '\x27' && c != '\\' && c != '$' && c != '\x7d'

/-- Whether a backslash counts before a character between double quotes. -/
def Mode.escapes (mode : Mode) (c : Char) : Bool :=
  c == '$' || c == '\\' || isGrave c || (c == '\x22' && mode != .here) ||
    (c == '\x7d' && mode == .braced true)

/-- Takes a text up to a grave accent that no backslash precedes, without the backslashes that are
needed in it. -/
def takeGrave (isQuoted : Bool) : Text → Option (Text × Text)
  | [] => none
  | '\\' :: c :: t =>
    let isDropped := c == '\\' || c == '$' || isGrave c || (isQuoted && c == '\x22')
    (takeGrave isQuoted t).map fun (inside, rest) =>
      ((if isDropped then [c] else ['\\', c]) ++ inside, rest)
  | c :: t =>
    if isGrave c then some ([], t)
    else (takeGrave isQuoted t).map fun (inside, rest) => (c :: inside, rest)

/-- Whether a character is the name of a parameter that the shell sets. -/
def isSpecial (c : Char) : Bool :=
  c.isDigit || c == '@' || c == '*' || c == '#' || c == '?' || c == '-' || c == '$' || c == '!'

/-- The name of a parameter at the front, where digits go together between braces. -/
def parameterName? (isBraced : Bool) : Text → Option (Text × Text)
  | [] => none
  | c :: t =>
    if isNameStart c then
      let name := c :: t.takeWhile isNameCharacter
      some (name, (c :: t).drop name.length)
    else if c.isDigit ∧ isBraced then
      let name := c :: t.takeWhile Char.isDigit
      some (name, (c :: t).drop name.length)
    else if isSpecial c then some ([c], t)
    else none

/-- What a sign behind the name of a parameter says about a missing value. -/
def fallback? (c : Char) : Option Fallback :=
  if c = '-' then some .substitute
  else if c = '=' then some .assign
  else if c = '?' then some .complain
  else if c = '+' then some .replace
  else none

/-- What a sign behind the name of a parameter says about a pattern. -/
def side? : Text → Option (Side × Text)
  | '#' :: '#' :: t => some (.longFront, t)
  | '#' :: t => some (.shortFront, t)
  | '%' :: '%' :: t => some (.longEnd, t)
  | '%' :: t => some (.shortEnd, t)
  | _ => none

/-- Reads what stands between braces behind the name of a parameter. -/
def parameterUse (parts : Mode → Reader Word) (mode : Mode) : Reader Use := do
  let inside := Mode.braced mode.isQuoted
  match (← get).rest with
  | '\x7d' :: t =>
    goOn t
    return .value
  | t =>
    match side? t with
    | some (side, t) =>
      goOn t
      return .trimmed side (← parts (.braced false))
    | none =>
      let (coversEmpty, t) : Bool × Text :=
        match t with
        | ':' :: t => (true, t)
        | t => (false, t)
      match t.head?.bind fallback? with
      | some fallback =>
        goOn t.tail
        return .withDefault coversEmpty fallback (← parts inside)
      | none =>
        goOn t
        let _ ← parts inside
        return .invalid

/-- The name behind a number sign, if its length is meant, and what follows it. -/
def sized? : Text → Option (Text × Text)
  | [] => none
  | c :: t =>
    if isNameCharacter c then parameterName? true (c :: t)
    else if c ≠ '\x7d' ∧ t.head? = some '\x7d' then some ([c], t)
    else none

/-- Reads a parameter behind a dollar sign and an opening brace. -/
def bracedParameter (parts : Mode → Reader Word) (mode : Mode) : Reader Part := do
  let isQuoted := mode.isQuoted
  let invalid (t : Text) : Reader Part := do
    goOn t
    let _ ← parts (.braced isQuoted)
    return .parameter isQuoted [] .invalid
  let used (t : Text) : Reader Part := do
    match parameterName? true t with
    | some (name, rest) =>
      goOn rest
      return .parameter isQuoted name (← parameterUse parts mode)
    | none => invalid t
  match (← get).rest with
  | '#' :: t =>
    match sized? t with
    | some (name, '\x7d' :: rest) =>
      if name.all fun c => isNameCharacter c || isSpecial c then
        goOn rest
        return .parameter isQuoted name .size
      else invalid t
    | some (_, rest) => invalid rest
    | none => used ('#' :: t)
  | t => used t

def inText (reader : Reader α) (t : Text) : Reader α := do
  let source ← get
  set { source with rest := t, ahead? := none }
  let result ← reader
  set source
  return result

/-- Reads the result of commands between grave accents. -/
def graveOutput (command? : Reader (Option Command)) (mode : Mode) : Reader Part := do
  match takeGrave mode.isQuoted (← get).rest with
  | none => refuse "EOF in backquote substitution"
  | some (inside, rest) =>
    let part := Part.output mode.isQuoted (← inText command? inside)
    goOn rest
    return part

/-- Reads the result of commands between parentheses. The reader of commands has looked at the token
behind them. -/
def parenthesizedOutput (command? : Reader (Option Command)) (mode : Mode) : Reader Part := do
  let inner? ← command?
  let source ← get
  let closing := source.ahead?.getD .endOfFile
  set { source with ahead? := none }
  if closing.isOperator ")" then return .output mode.isQuoted inner?
  unexpected closing (some "\")\"")

/-- Reads what is put in behind a dollar sign. A dollar sign before anything else stands for
itself. -/
def expansion (command? : Reader (Option Command)) (parts : Mode → Reader Word) (mode : Mode) :
    Reader Part := do
  match (← get).rest with
  | '(' :: '(' :: t =>
    goOn t
    return .number mode.isQuoted (← parts (.number 0))
  | '(' :: t =>
    goOn t
    parenthesizedOutput command? mode
  | '\x7b' :: t =>
    goOn t
    bracedParameter parts mode
  | t =>
    match parameterName? false t with
    | some (name, rest) =>
      goOn rest
      return .parameter mode.isQuoted name .value
    | none => return .text mode.isQuoted ['$']

/-- What is wrong with a script that ends inside a word. -/
def Mode.missing? : Mode → Option Text
  | bare => none
  | here => none
  | quoted => some "Unterminated quoted string"
  | braced _ => some "Missing '\x7d'"
  | number _ => some "Missing '))'"

/-- What a character means that neither begins an expansion nor takes away a meaning. -/
inductive Meaning where
  | itself
  | ending
  | closing (rest : Text)
  | opening
  | literal
  | dropped
  | nesting (mode : Mode)

def Mode.meaning (mode : Mode) (c : Char) (t : Text) : Meaning :=
  match mode with
  | bare =>
    if endsWord c then .ending
    else if c = '\x22' then .opening
    else if c = '\x27' then .literal
    else .itself
  | quoted => if c = '\x22' then .closing t else .itself
  | braced isQuoted =>
    if c = '\x7d' then .closing t
    else if c = '\x22' then .opening
    else if c = '\x27' ∧ !isQuoted then .literal
    else .itself
  | here => .itself
  | number isOpen =>
    if c = '(' then .nesting (.number (isOpen + 1))
    else if c = '\x22' then .dropped
    else if c ≠ ')' then .itself
    else
      match isOpen, t with
      | isOpen + 1, _ => .nesting (.number isOpen)
      | 0, ')' :: t => .closing t
      | 0, _ => .itself

/-- Reads the parts of a word, in at most this many steps. -/
def parts (command? : Reader (Option Command)) : (most : Nat) → Mode → Reader Word
  | 0, _ => refuse "Unterminated quoted string"
  | most + 1, mode => do
    let goingOn (part : Part) : Reader Word := do return part :: (← parts command? most mode)
    match (← get).rest with
    | [] =>
      match mode.missing? with
      | some reason => refuse reason
      | none => return []
    | '$' :: t =>
      goOn t
      goingOn (← expansion command? (parts command? most) mode)
    | '\\' :: '\n' :: t =>
      goOnLine t
      parts command? most mode
    | '\\' :: c :: t =>
      if !mode.isQuoted ∨ mode.escapes c then
        goOnBehind [c] t
        goingOn (.text true [c])
      else
        goOn (c :: t)
        goingOn (.text true ['\\'])
    | c :: t =>
      if isGrave c then
        goOn t
        goingOn (← graveOutput command? mode)
      else
        match mode.meaning c t with
        | .ending => return []
        | .closing rest =>
          goOn rest
          return []
        | .opening =>
          goOn t
          let inside ← parts command? most .quoted
          return .text true [] :: inside ++ (← parts command? most mode)
        | .literal =>
          let inside := t.takeWhile (· ≠ '\x27')
          match t.drop inside.length with
          | [] =>
            goOnBehind inside []
            refuse "Unterminated quoted string"
          | _ :: rest =>
            goOnBehind inside rest
            goingOn (.text true inside)
        | .dropped =>
          goOn t
          parts command? most mode
        | .nesting inner =>
          goOn t
          return .text true [c] :: (← parts command? most inner)
        | .itself =>
          let run := c :: t.takeWhile isPlain
          goOnBehind [c] (t.drop (run.length - 1))
          goingOn (.text mode.isQuoted run)

def allParts (command? : Reader (Option Command)) (mode : Mode) : Reader Word := do
  parts command? ((← get).rest.length + 2) mode

/-- Leaves out blanks and comments at the front, and line ends too if `skipsLines` says so. -/
def skipBlanks (skipsLines : Bool) : (inComment : Bool) → Text → Reader Unit
  | _, [] => goOn []
  | inComment, '\\' :: '\n' :: t => do
    goOnLine t
    skipBlanks skipsLines inComment t
  | inComment, c :: t => do
    if c = '\n' then
      if skipsLines then
        goOnLine t
        skipBlanks skipsLines false t
      else goOn (c :: t)
    else if inComment ∨ c = '#' then skipBlanks skipsLines true t
    else if c = ' ' ∨ c = '\t' then skipBlanks skipsLines false t
    else goOn (c :: t)

/-- The arrow at the front of a text, with whether it leads in. -/
def arrow? : Text → Option (Arrow × Bool × Text)
  | '>' :: '>' :: t => some (.append, false, t)
  | '>' :: '&' :: t => some (.sameOutput, false, t)
  | '>' :: '|' :: t => some (.output, false, t)
  | '>' :: t => some (.output, false, t)
  | '<' :: '<' :: '-' :: t => some (.here true, true, t)
  | '<' :: '<' :: t => some (.here false, true, t)
  | '<' :: '&' :: t => some (.sameInput, true, t)
  | '<' :: '>' :: t => some (.both, true, t)
  | '<' :: t => some (.input, true, t)
  | _ => none

/-- The beginning of a redirection at the front of a text. -/
def redirection? (t : Text) : Option (Token × Text) :=
  match arrow? t with
  | some (arrow, leadsIn, rest) => some (.redirection (if leadsIn then 0 else 1) arrow, rest)
  | none =>
    match t with
    | c :: t =>
      if c.isDigit then
        (arrow? t).map fun (arrow, _, rest) =>
          (.redirection (Text.digitsValue 0 [c]) arrow, rest)
      else none
    | [] => none

/-- The operators between commands, longer ones before those that they begin with. -/
def operators : List Text := ["&&", "||", ";;", "&", "|", ";", "(", ")"]

def operator? (t : Text) : Option (Token × Text) :=
  operators.findSome? fun name => (t.after? name).map fun rest => (.operator name, rest)

/-- Reads a token that stands at the front. -/
def tokenHere (command? : Reader (Option Command)) : Reader Token := do
  match (← get).rest with
  | [] => return .endOfFile
  | '\n' :: t =>
    goOnLine t
    return .lineEnd
  | t =>
    match redirection? t <|> operator? t with
    | some (found, rest) =>
      goOn rest
      return found
    | none => return .word (← allParts command? .bare)

def Token.isLineEnd : Token → Bool
  | lineEnd => true
  | _ => false

def Token.withKeywords (token : Token) : Token :=
  match token with
  | word found =>
    match bareText? found with
    | some name => if keywords.contains name then keyword name else token
    | none => token
  | _ => token

/-- Reads a token. Line ends are left out if `skipsLines` says so, and words can be keywords if
`knowsKeywords` does. -/
def nextToken (command? : Reader (Option Command)) (skipsLines knowsKeywords : Bool) :
    Reader Token := do
  let source ← get
  let fresh : Reader Token := do
    skipBlanks skipsLines false (← get).rest
    tokenHere command?
  let token ←
    match source.ahead? with
    | some token =>
      set { source with ahead? := none }
      if skipsLines ∧ token.isLineEnd then fresh else pure token
    | none => fresh
  return if knowsKeywords then token.withKeywords else token

def putBack (token : Token) : Reader Unit :=
  modify fun source => { source with ahead? := some token }

/-- The lines of a here-document, with what follows its end and how many lines it takes with its
end. -/
def takeHere (dropsTabs : Bool) (ending : Text) : List Text → Text × Text × Nat
  | [] => ([], [], 0)
  | line :: lines =>
    let line := if dropsTabs then line.dropWhile (· = '\t') else line
    if line = ending then ([], Text.joinWith ['\n'] lines, 1)
    else
      let (content, rest, count) := takeHere dropsTabs ending lines
      (line ++ (if lines.isEmpty then [] else ['\n']) ++ content, rest, count + 1)

/-- Takes the text of a here-document out of the script. -/
def hereContent (command? : Reader (Option Command)) (dropsTabs : Bool) (delimiter : Word) :
    Reader Word := do
  let source ← get
  let front := source.rest.takeWhile (· ≠ '\n')
  match source.rest.drop front.length with
  | [] => return []
  | _ :: behind =>
    let ending := (plainText? delimiter).getD []
    let (content, rest, count) := takeHere dropsTabs ending (Text.splitOn '\n' behind)
    set { source with rest := front ++ '\n' :: rest, owed := source.owed + count }
    if (bareText? delimiter).isNone then return [.text true content]
    inText (allParts command? .here) content

end Shell

end SampleHarvest
