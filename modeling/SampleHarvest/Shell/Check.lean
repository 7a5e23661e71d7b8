import SampleHarvest.Shell.Machine
import SampleHarvest.Text.Decimal

/-!
# Checks

A check is a condition on files, texts and numbers, written as words. Its operators are told from
operands by their place: a word that looks like an operator is an operand where no operator can
stand.

There are two readings. The loose one goes through any number of words; the strict one knows what
is meant by the number of words alone, as long as there are few.
-/

namespace SampleHarvest

namespace Shell

/-- A condition on files, texts and numbers. -/
inductive Check where
  | constant (value : Bool)
  | filled (t : Text)
  | unary (operator : Char) (operand : Text)
  | binary (operator left right : Text)
  | negated (inner : Check)
  | both (first second : Check)
  | either (first second : Check)
  deriving DecidableEq, Repr

namespace Check

/-- What a word is for a check. -/
inductive Kind where
  | ending
  | opening
  | closing
  | negation
  | conjunction
  | disjunction
  | unary
  | binary
  | operand
  deriving DecidableEq, Repr

/-- The letters of the operators before an operand. -/
def unaryLetters : Text := "rwxefdcbpugkstznhLSOG"

/-- The letter of an operator before an operand, if a word is one. -/
def unaryLetter? : Text → Option Char
  | ['-', c] => if unaryLetters.any (· == c) then some c else none
  | _ => none

/-- The operators between operands. -/
def binaryOperators : List Text :=
  ["=", "!=", "<", ">", "-eq", "-ne", "-gt", "-ge", "-lt", "-le", "-nt", "-ot", "-ef"]

/-- Whether a word is an operator between operands. -/
def isBinary (word : Text) : Bool := binaryOperators.any (· == word)

/-- What the first of some words is. -/
def kind : List Text → Kind
  | [] => .ending
  | word :: words =>
    if word = "(" then (if words.isEmpty then .operand else .opening)
    else if word = ")" then .closing
    else if word = "!" then .negation
    else if word = "-a" then .conjunction
    else if word = "-o" then .disjunction
    else if isBinary word then .binary
    else if (unaryLetter? word).isSome then
      match words with
      | [] => .operand
      | [_] => .unary
      | second :: _ => if isBinary second then .operand else .unary
    else .operand

/-- A check with the words from the last one on that it takes. -/
abbrev Found := Check × List Text

mutual

/-- Reads conditions of which one has to hold. -/
def readEither : (steps : Nat) → Kind → List Text → Except Text Found
  | 0, _, words => .ok (.constant false, words)
  | steps + 1, kind, words => do
    let (first, words) ← readBoth steps kind words
    let behind := words.drop 1
    if Check.kind behind ≠ .disjunction then return (first, words)
    let next := words.drop 2
    let (second, words) ← readEither steps (Check.kind next) next
    return (.either first second, words)

/-- Reads conditions which all have to hold. -/
def readBoth : (steps : Nat) → Kind → List Text → Except Text Found
  | 0, _, words => .ok (.constant false, words)
  | steps + 1, kind, words => do
    let (first, words) ← readNegated steps kind words
    let behind := words.drop 1
    if Check.kind behind ≠ .conjunction then return (first, words)
    let next := words.drop 2
    let (second, words) ← readBoth steps (Check.kind next) next
    return (.both first second, words)

/-- Reads a condition with the negations before it. -/
def readNegated : (steps : Nat) → Kind → List Text → Except Text Found
  | 0, _, words => .ok (.constant false, words)
  | steps + 1, .negation, words => do
    let next := words.drop 1
    let next := if next.isEmpty then words else next
    let kind := if (words.drop 1).isEmpty then .ending else Check.kind next
    let (inner, words) ← readNegated steps kind next
    return (.negated inner, words)
  | steps + 1, kind, words => readSingle steps kind words

def readSingle : (steps : Nat) → Kind → List Text → Except Text Found
  | 0, _, words => .ok (.constant false, words)
  | _, .ending, words => .ok (.constant false, words)
  | _, _, [] => .ok (.constant false, [])
  | steps + 1, .opening, _ :: words => do
    if kind words = .closing then return (.constant false, words)
    let (inner, words) ← readEither steps (kind words) words
    let words := words.drop 1
    if kind words ≠ .closing then throw "closing paren expected".toList
    return (inner, words)
  | _ + 1, .unary, word :: words =>
    match words with
    | [] => .error (word ++ ": argument expected")
    | operand :: _ => .ok (.unary ((unaryLetter? word).getD 'n') operand, words)
  | _ + 1, _, word :: words =>
    if kind words = .binary then
      match words with
      | operator :: right :: others => .ok (.binary operator word right, right :: others)
      | operator :: [] => .error (operator ++ ": argument expected")
      | [] => .ok (.filled word, [word])
    else .ok (.filled word, word :: words)

end

def readFrom (kind : Kind) (words : List Text) : Except Text Check := do
  let (found, last) ← readEither (6 * words.length + 6) kind words
  match last with
  | operator :: _ :: _ =>
    if operator.isEmpty then throw "unexpected operator".toList
    else throw (operator ++ ": unexpected operator")
  | _ => return found

/-- Reads a check in the loose way. -/
def parse : List Text → Except Text Check
  | [] => .ok (.constant false)
  | first :: rest =>
    let words := first :: rest
    let isShort : Bool := rest.length == 2 || rest.length == 3
    if rest.length = 2 ∧ rest.head?.any isBinary then readFrom .operand words
    else if isShort ∧ first = "(" ∧ rest.getLast? = some [')'] then
      readFrom (kind rest.dropLast) rest.dropLast
    else if isShort ∧ first = "!" then Check.negated <$> parse rest
    else readFrom (kind words) words

def quoted (word : Text) : Text := '\x27' :: (word ++ ['\x27'])

/-- Reads a check of any number of words in the strict way. -/
def readStrictly (words : List Text) : Except Text Check := do
  let (found, last) ← readEither (6 * words.length + 6) (kind words) words
  match last with
  | _ :: extra :: _ => throw ("extra argument " ++ quoted extra)
  | _ => return found

/-- Reads a check in the strict way. -/
def parseStrictly : (steps : Nat) → List Text → Except Text Check
  | 0, _ => .ok (.constant false)
  | _ + 1, [] => .ok (.constant false)
  | _ + 1, [first] => .ok (.filled first)
  | steps + 1, [first, second] =>
    if first = "!" then Check.negated <$> parseStrictly steps [second]
    else
      match unaryLetter? first, first with
      | some letter, _ => .ok (.unary letter second)
      | none, ['-', _] => .error (quoted first ++ ": unary operator expected")
      | none, _ => .error ("missing argument after " ++ quoted second)
  | steps + 1, [first, second, third] =>
    if isBinary second then .ok (.binary second first third)
    else if second = "==" then .ok (.binary ['='] first third)
    else if first = "!" then Check.negated <$> parseStrictly steps [second, third]
    else if first = "(" ∧ third = ")" then .ok (.filled second)
    else if second = "-a" then .ok (.both (.filled first) (.filled third))
    else if second = "-o" then .ok (.either (.filled first) (.filled third))
    else .error (quoted second ++ ": binary operator expected")
  | steps + 1, [first, second, third, fourth] =>
    if first = "!" then Check.negated <$> parseStrictly steps [second, third, fourth]
    else if first = "(" ∧ fourth = ")" then parseStrictly steps [second, third]
    else readStrictly [first, second, third, fourth]
  | _ + 1, words => readStrictly words

/-- The decimal number that a text is, with blanks around it. -/
def number? (t : Text) : Option Int :=
  let t := t.dropWhile Text.isRawBlank
  let t := (t.reverse.dropWhile Text.isRawBlank).reverse
  match t with
  | '-' :: digits => (Text.toNat? digits).map fun n => -(n : Int)
  | '+' :: digits => (Text.toNat? digits).map Int.ofNat
  | digits => (Text.toNat? digits).map Int.ofNat

/-- The comparison of numbers that an operator makes. -/
def compare? (operator : Text) (a b : Int) : Option Bool :=
  if operator = "-eq" then some (a == b)
  else if operator = "-ne" then some (a != b)
  else if operator = "-gt" then some (b < a)
  else if operator = "-ge" then some (b ≤ a)
  else if operator = "-lt" then some (a < b)
  else if operator = "-le" then some (a ≤ b)
  else none

/-- Where a raw path leads, over a link at its end or not. -/
def placeOf? (follows : Bool) (path : Text) : Act (Option (Location × Node)) := do
  let machine ← get
  match machine.disk.locate follows (Text.ofRaw path) with
  | .ok (.present location node) => return some (location, node)
  | _ => return none

def isDevice (location : Location) (node : Node) : Bool :=
  !node.isFolder && (location.head?.any fun (name : Text) => name == "dev".toList)

def sizeOf : Node → Nat
  | .file (.bytes bytes) => bytes.length
  | .file (.ledger _) => 4096
  | .folder _ => 4096
  | .link target => (Text.toRaw target).length

def checkFile (operator : Char) (path : Text) : Act Bool := do
  let follows := operator ≠ 'h' ∧ operator ≠ 'L'
  match ← placeOf? follows path with
  | none => return false
  | some (location, node) =>
    let device := isDevice location node
    let mode := modeOf (← get) location node
    return match operator with
      | 'f' => !node.isFolder && !device
      | 'd' => node.isFolder
      | 'c' => device
      | 's' => !device && sizeOf node != 0
      | 'x' => node.isFolder || mode % 8 % 2 == 1 || mode / 8 % 2 == 1 || mode / 64 % 2 == 1
      | 'h' => match node with
        | .link _ => true
        | _ => false
      | 'L' => match node with
        | .link _ => true
        | _ => false
      | 'u' => mode / 2048 % 2 == 1
      | 'g' => mode / 1024 % 2 == 1
      | 'k' => mode / 512 % 2 == 1
      | 'b' => false
      | 'p' => false
      | 'S' => false
      | _ => true

/-- Whether two operands are as an operator between them says; `illegal` words the message about an
operand that is no number. -/
def checkBoth (illegal : Text → Text) (operator left right : Text) : Act (Except Text Bool) := do
  if operator = "=" then return .ok (left == right)
  if operator = "!=" then return .ok (left != right)
  if operator = "<" then return .ok (left != right && Text.le left right)
  if operator = ">" then return .ok (left != right && Text.le right left)
  if operator = "-ef" then
    match ← placeOf? true left, ← placeOf? true right with
    | some (first, _), some (second, _) => return .ok (first == second)
    | _, _ => return .ok false
  if operator = "-nt" ∨ operator = "-ot" then return .ok false
  match number? left, number? right with
  | some a, some b => return .ok ((compare? operator a b).getD false)
  | none, _ => return .error (illegal left)
  | _, none => return .error (illegal right)

/-- Whether a condition holds. Both parts of a condition are looked at in any case. -/
def holds (illegal : Text → Text) : Check → Act (Except Text Bool)
  | constant value => return .ok value
  | filled t => return .ok (!t.isEmpty)
  | unary operator operand => do
    if operator = 'z' then return .ok operand.isEmpty
    if operator = 'n' then return .ok (!operand.isEmpty)
    if operator = 't' then
      return if (number? operand).isSome then .ok false else .error (illegal operand)
    return .ok (← checkFile operator operand)
  | binary operator left right => checkBoth illegal operator left right
  | negated inner => do
    match ← holds illegal inner with
    | .ok value => return .ok (!value)
    | .error message => return .error message
  | both first second => do
    match ← holds illegal first with
    | .error message => return .error message
    | .ok a =>
      match ← holds illegal second with
      | .error message => return .error message
      | .ok b => return .ok (a && b)
  | either first second => do
    match ← holds illegal first with
    | .error message => return .error message
    | .ok a =>
      match ← holds illegal second with
      | .error message => return .error message
      | .ok b => return .ok (a || b)

/-- The words of a check that begins with a bracket, without the closing one. -/
def unbracketed? (words : List Text) : Option (List Text) :=
  if words.getLast? = some ['\x5d'] then some words.dropLast else none

end Check

end Shell

end SampleHarvest
