import SampleHarvest.Shell.Token

/-!
# Commands

The tokens of a script are read as commands, one line of the script at a time, so that a line is run
before the next one is read. A list of commands ends before a token that nothing in it can begin
with; whoever reads the list says which token has to come there.

The readers of lists and commands hold each other. They are given to each reader from outside, down
to a depth that no script reaches.
-/

namespace SampleHarvest

namespace Shell

/-- Where a list of commands stands. -/
inductive ListPlace where
  | line
  | inner
  | optional
  deriving DecidableEq, Repr

/-- The readers that readers use for what is inside. -/
structure Readers where
  list : ListPlace → Reader (Option Command)
  /-- The reader of commands; it is told whether to leave out line ends and to know keywords. -/
  command : Bool → Bool → Reader Command

namespace Readers

def token (readers : Readers) (skipsLines knowsKeywords : Bool) : Reader Token :=
  nextToken (readers.list .optional) skipsLines knowsKeywords

/-- Reads a list where something has to stand. It is empty only at the end of the script, where the
token that has to follow is missing too. -/
def body (readers : Readers) : Reader Command := do
  return (← readers.list .inner).getD (.simple 0 [] [] [])

def keyword (readers : Readers) (name : Text) (skipsLines : Bool := false) : Reader Unit := do
  let token ← readers.token skipsLines true
  unless token.isKeyword name do
    unexpected token (some ((Token.keyword name).shown))

end Readers

/-- Whether a token ends a list of commands inside a command. -/
def Token.closesList : Token → Bool
  | endOfFile => true
  | operator name => name == ")" || name == ";;"
  | keyword name =>
    name == "do" || name == "done" || name == "elif" || name == "else" || name == "esac" ||
      name == "fi" || name == "then" || name == "\x7d"
  | _ => false

def redirectionTarget (readers : Readers) (arrow : Arrow) : Reader Target := do
  match ← readers.token false false with
  | .word file =>
    match arrow with
    | .input => return .input file
    | .output => return .output file
    | .append => return .append file
    | .both => return .both file
    | .sameInput => return .same true file
    | .sameOutput => return .same false file
    | .here dropsTabs => return .here (← hereContent (readers.list .optional) dropsTabs file)
  | token => unexpected token

def redirections (readers : Readers) : (most : Nat) → Reader (List Redirection)
  | 0 => return []
  | most + 1 => do
    match ← readers.token false true with
    | .redirection descriptor arrow =>
      let first := (descriptor, ← redirectionTarget readers arrow)
      return first :: (← redirections readers most)
    | token =>
      putBack token
      return []

/-- The name and the value of an assignment, if a word is one. -/
def assignment? (word : Word) : Option (Text × Word) :=
  let rec after (name : Text) : Word → Option (Text × Word)
    | .text false t :: parts =>
      match Text.splitFirst? '=' t with
      | some (front, value) =>
        if isName (name ++ front) then
          some (name ++ front, if value.isEmpty then parts else .text false value :: parts)
        else none
      | none => after (name ++ t) parts
    | _ => none
  after [] word

/-- What has been read of a simple command. -/
structure SimpleDraft where
  assignments : List (Text × Word) := []
  words : List Word := []
  redirections : List Redirection := []

/-- The commands of the shell whose names cannot be given to others. -/
def reservedCommands : List Text :=
  [":", ".", "break", "continue", "eval", "exec", "exit", "export", "readonly", "return", "set",
    "shift", "times", "trap", "unset"]

def definition (readers : Readers) (name : Word) : Reader Command := do
  let token ← readers.token false false
  unless token.isOperator ")" do unexpected token (some "\")\"")
  let name := (bareText? name).getD []
  if !isName name ∨ reservedCommands.contains name then refuse "Bad function name"
  return .definition name (← readers.command true true)

/-- Reads a simple command, of which at most this many tokens are left. -/
def simple (readers : Readers) (line : Nat) : (most : Nat) → SimpleDraft → Reader Command
  | 0, draft => return .simple line draft.assignments draft.words draft.redirections
  | most + 1, draft => do
    match ← readers.token false false with
    | .word word =>
      match if draft.words.isEmpty then assignment? word else none with
      | some assignment =>
        simple readers line most { draft with assignments := draft.assignments ++ [assignment] }
      | none => simple readers line most { draft with words := draft.words ++ [word] }
    | .redirection descriptor arrow =>
      let found := (descriptor, ← redirectionTarget readers arrow)
      simple readers line most { draft with redirections := draft.redirections ++ [found] }
    | token =>
      match draft with
      | ⟨[], [name], []⟩ =>
        if token.isOperator "(" then return ← definition readers name
      | _ => pure ()
      putBack token
      return .simple line draft.assignments draft.words draft.redirections

/-- Reads the rest of a condition behind its first word, with at most this many branches. -/
def condition (readers : Readers) : (most : Nat) → Reader Command
  | 0 => refuse "end of file unexpected"
  | most + 1 => do
    let test ← readers.body
    readers.keyword "then"
    let first ← readers.body
    let token ← readers.token false true
    if token.isKeyword "elif" then return .condition test first (some (← condition readers most))
    else if token.isKeyword "else" then return .condition test first (some (← readers.body))
    else
      putBack token
      return .condition test first none

/-- Reads words up to another token, at most this many. -/
def wordsHere (readers : Readers) : (most : Nat) → Reader (List Word)
  | 0 => return []
  | most + 1 => do
    match ← readers.token false false with
    | .word word => return word :: (← wordsHere readers most)
    | token =>
      putBack token
      return []

/-- Reads the words that a loop goes through, which are the arguments of the script if there are
none. -/
def loopWords (readers : Readers) : Reader (List Word) := do
  let token ← readers.token true true
  if token.isKeyword "in" then
    let words ← wordsHere readers ((← get).rest.length + 1)
    let closing ← readers.token false false
    unless closing.isLineEnd ∨ closing.isOperator ";" do unexpected closing
    return words
  unless token.isOperator ";" do putBack token
  return [[.parameter true ['@'] .value]]

/-- Reads the rest of a loop through words. -/
def forEach (readers : Readers) (line : Nat) : Reader Command := do
  match ← readers.token false false with
  | .word word =>
    match bareText? word with
    | some name =>
      unless isName name do refuse "Bad for loop variable"
      let words ← loopWords readers
      readers.keyword "do" true
      let body ← readers.body
      readers.keyword "done"
      return .forEach line name words body
    | none => refuse "Bad for loop variable"
  | _ => refuse "Bad for loop variable"

/-- Reads the patterns of a branch and its closing parenthesis, at most this many tokens. -/
def branchPatterns (readers : Readers) : (most : Nat) → Token → Reader (List Word)
  | 0, token => unexpected token
  | most + 1, token => do
    let word ←
      match token with
      | .word word => pure word
      | .keyword name => pure [.text false name]
      | _ => unexpected token
    let behind ← readers.token false false
    if behind.isOperator "|" then
      return word :: (← branchPatterns readers most (← readers.token false false))
    unless behind.isOperator ")" do unexpected behind (some "\")\"")
    return [word]

/-- Reads the branches of a choice, at most this many. -/
def branches (readers : Readers) : (most : Nat) → Reader (List (List Word × Option Command))
  | 0 => return []
  | most + 1 => do
    let token ← readers.token true true
    if token.isKeyword "esac" then return []
    let first ← if token.isOperator "(" then readers.token false false else pure token
    let patterns ← branchPatterns readers ((← get).rest.length + 1) first
    let body? ← readers.list .optional
    let closing ← readers.token true true
    if closing.isKeyword "esac" then return [(patterns, body?)]
    unless closing.isOperator ";;" do unexpected closing (some "\";;\"")
    return (patterns, body?) :: (← branches readers most)

def choice (readers : Readers) (line : Nat) : Reader Command := do
  match ← readers.token false false with
  | .word word =>
    readers.keyword "in" true
    return .choice line word (← branches readers ((← get).rest.length + 1))
  | token => unexpected token (some "word")

def withRedirections (readers : Readers) (line : Nat) (inner : Command) : Reader Command := do
  match ← redirections readers ((← get).rest.length + 1), inner with
  | [], inner => return inner
  | found, .subshell line inner _ => return .subshell line inner found
  | found, inner => return .redirected line inner found

def commandWith (readers : Readers) (skipsLines knowsKeywords : Bool) : Reader Command := do
  let token ← readers.token skipsLines knowsKeywords
  let line := (← get).line
  let closed (inner : Command) (name : Text) : Reader Command := do
    readers.keyword name
    withRedirections readers line inner
  match token with
  | .word _ =>
    putBack token
    simple readers line ((← get).rest.length + 2) {}
  | .redirection _ _ =>
    putBack token
    simple readers line ((← get).rest.length + 2) {}
  | .operator ['('] =>
    let inner ← readers.body
    let closing ← readers.token false false
    unless closing.isOperator ")" do unexpected closing (some "\")\"")
    withRedirections readers line (.subshell line inner [])
  | .keyword name =>
    if name = "if" then closed (← condition readers ((← get).rest.length + 1)) "fi"
    else if name = "while" ∨ name = "until" then
      let test ← readers.body
      readers.keyword "do"
      closed (.loop (name = "while") test (← readers.body)) "done"
    else if name = "for" then withRedirections readers line (← forEach readers line)
    else if name = "case" then withRedirections readers line (← choice readers line)
    else if name = "\x7b" then closed (← readers.body) "\x7d"
    else unexpected token
  | token => unexpected token

/-- Reads the commands behind a pipe, at most this many. -/
def piped (readers : Readers) : (most : Nat) → Reader (List Command)
  | 0 => return []
  | most + 1 => do
    let token ← readers.token false false
    if token.isOperator "|" then
      let first ← readers.command true true
      return first :: (← piped readers most)
    putBack token
    return []

def pipeline (readers : Readers) (skipsLines knowsKeywords : Bool) : Reader Command := do
  let token ← readers.token skipsLines knowsKeywords
  let isNegated := token.isKeyword ['!']
  unless isNegated do putBack token
  let first ← readers.command false isNegated
  let found ←
    match ← piped readers ((← get).rest.length + 1) with
    | [] => pure first
    | others => pure (.pipeline (first :: others))
  return if isNegated then .negated found else found

/-- Reads what is joined to a command by its success and failure, at most this many pipelines. -/
def joined (readers : Readers) : (most : Nat) → Command → Reader Command
  | 0, first => return first
  | most + 1, first => do
    let token ← readers.token false false
    if token.isOperator "&&" then
      joined readers most (.both first (← pipeline readers true true))
    else if token.isOperator "||" then
      joined readers most (.either first (← pipeline readers true true))
    else
      putBack token
      return first

def followed (first? : Option Command) (second : Command) : Command :=
  match first? with
  | some first => .sequence first second
  | none => second

/-- Reads a list of commands behind one that has been read, at most this many. -/
def listWith (readers : Readers) (place : ListPlace) :
    (most : Nat) → (before? : Option Command) → Reader (Option Command)
  | 0, before? => return before?
  | most + 1, before? => do
    let isLine := place == .line
    let token ← readers.token (!isLine) true
    match token with
    | .lineEnd => return before?
    | .endOfFile =>
      putBack token
      return before?
    | _ => pure ()
    putBack token
    if token.closesList ∧ !isLine ∧ (place = .optional ∨ before?.isSome) then return before?
    let first ← joined readers ((← get).rest.length + 1) (← pipeline readers false false)
    let behind ← readers.token false false
    let found := followed before? (if behind.isOperator "&" then .background first else first)
    if behind.isOperator "&" ∨ behind.isOperator ";" then
      listWith readers place most (some found)
    else
      match behind with
      | .lineEnd =>
        putBack behind
        listWith readers place most (some found)
      | .endOfFile =>
        putBack behind
        return some found
      | _ =>
        if isLine then unexpected behind
        putBack behind
        return some found

/-- The readers that go at most this deep. -/
def readers : (depth : Nat) → Readers
  | 0 => ⟨fun _ => refuse "end of file unexpected", fun _ _ => refuse "end of file unexpected"⟩
  | depth + 1 =>
    let inner := readers depth
    { list := fun place => do listWith inner place ((← get).rest.length + 2) none
      command := commandWith inner }

/-- How deep commands can stand inside each other. -/
def maxDepth : Nat := 400

def line? : Reader (Option Command) := (readers maxDepth).list .line

/-- The script that is left before its first line. -/
def Source.ofText (t : Text) : Source := { rest := t, line := 1 }

/-- Whether nothing is left of a script. -/
def Source.isAtEnd (source : Source) : Bool := source.rest.isEmpty

end Shell

end SampleHarvest
