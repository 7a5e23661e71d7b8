import SampleHarvest.Shell.Syntax
import SampleHarvest.Text.Decimal

/-!
# Expressions

Expressions in scripts are about whole numbers of 64 bits with a sign; what does not fit is taken
around. Names stand for variables, and a variable without a value is zero. An expression can set
variables on its way.

Truth values are one and zero. The second operand of a connective that the first one decides is left
out, and so is the branch that a choice does not take.
-/

namespace SampleHarvest

namespace Shell

/-- An operator between two numbers. -/
inductive BinaryOperator where
  | multiply
  | divide
  | remainder
  | add
  | subtract
  | shiftUp
  | shiftDown
  | less
  | lessEqual
  | greater
  | greaterEqual
  | equal
  | notEqual
  | bitAnd
  | bitXor
  | bitOr
  deriving DecidableEq, Repr

/-- An operator before a number. -/
inductive UnaryOperator where
  | plus
  | minus
  | isZero
  | bitNot
  deriving DecidableEq, Repr

inductive Expression where
  | number (value : Int)
  | variable (name : Text)
  | unary (operator : UnaryOperator) (operand : Expression)
  | binary (operator : BinaryOperator) (left right : Expression)
  | both (left right : Expression)
  | either (left right : Expression)
  | choice (test first second : Expression)
  | assignment (name : Text) (operator? : Option BinaryOperator) (value : Expression)
  deriving Repr

namespace Arithmetic

/-- A number taken around to 64 bits. -/
def wrap (n : Int) : Int := Int.bmod n 18446744073709551616

/-- The truth value of a condition. -/
def ofBool (b : Bool) : Int := if b then 1 else 0

/-- The bits of a number as a natural number. -/
def bits (n : Int) : Nat := (n % 18446744073709551616).toNat

def BinaryOperator.value? (operator : BinaryOperator) (a b : Int) : Option Int :=
  match operator with
  | .multiply => some (wrap (a * b))
  | .divide => if b = 0 then none else some (wrap (Int.tdiv a b))
  | .remainder => if b = 0 then none else some (Int.tmod a b)
  | .add => some (wrap (a + b))
  | .subtract => some (wrap (a - b))
  | .shiftUp => some (wrap (a * Nat.pow 2 (bits b % 64)))
  | .shiftDown => some (Int.fdiv a (Nat.pow 2 (bits b % 64)))
  | .less => some (ofBool (a < b))
  | .lessEqual => some (ofBool (a ≤ b))
  | .greater => some (ofBool (b < a))
  | .greaterEqual => some (ofBool (b ≤ a))
  | .equal => some (ofBool (a = b))
  | .notEqual => some (ofBool (a ≠ b))
  | .bitAnd => some (wrap (Nat.land (bits a) (bits b)))
  | .bitXor => some (wrap (Nat.xor (bits a) (bits b)))
  | .bitOr => some (wrap (Nat.lor (bits a) (bits b)))

def UnaryOperator.value (operator : UnaryOperator) (a : Int) : Int :=
  match operator with
  | .plus => a
  | .minus => wrap (-a)
  | .isZero => ofBool (a = 0)
  | .bitNot => wrap (-a - 1)

def digitValue? (c : Char) : Option Nat :=
  if c.isDigit then some (c.toNat - 48)
  else if c.isAlpha then some (c.toLower.toNat - 87)
  else none

/-- The number at the front of a text, which begins as in the language C, and the rest. -/
def leadingNumber (t : Text) : Nat × Text :=
  let digitsOf (base : Nat) (t : Text) : Nat × Text :=
    let run := t.takeWhile fun c => (digitValue? c).any (· < base)
    (run.foldl (fun n c => base * n + (digitValue? c).getD 0) 0, t.drop run.length)
  match t with
  | '0' :: x :: d :: rest =>
    if (x = 'x' ∨ x = 'X') ∧ (digitValue? d).any (· < 16) then digitsOf 16 (d :: rest)
    else digitsOf 8 t
  | '0' :: _ => digitsOf 8 t
  | t => digitsOf 10 t

def maxNumber : Int := 9223372036854775807

def minNumber : Int := -9223372036854775808

def clamp (n : Int) : Int := max minNumber (min maxNumber n)

/-- The number that the value of a variable is, if it is one. Blanks around it do not count. -/
def ofValue? (t : Text) : Option Int :=
  let t := t.dropWhile Text.isRawBlank
  let (isNegative, digits) : Bool × Text :=
    match t with
    | '-' :: t => (true, t)
    | '+' :: t => (false, t)
    | t => (false, t)
  if t.isEmpty then some 0
  else if !digits.head?.any Char.isDigit then none
  else
    let (n, rest) := leadingNumber digits
    if rest.all Text.isRawBlank then some (if isNegative then -(n : Int) else n) else none

/-- A piece of an expression. -/
inductive Token where
  | number (value : Int)
  | name (name : Text)
  | sign (text : Text)
  deriving DecidableEq, Repr

/-- The signs, longer ones before those that they begin with. -/
def signs : List Text :=
  let long : List Text :=
    ["<<=", ">>=", "<<", ">>", "<=", ">=", "==", "!=", "&&", "||", "*=", "/=", "%=", "+=", "-=",
      "&=", "^=", "|="]
  let short : Text := "*/%+-<>=&^|!~()?:"
  long ++ short.map fun c => [c]

/-- The pieces of an expression, at most this many. A character without a meaning is a sign. -/
def tokens : (most : Nat) → Text → List Token
  | 0, _ => []
  | _, [] => []
  | most + 1, c :: t =>
    if c = ' ' ∨ c = '\t' ∨ c = '\n' then tokens most t
    else if c.isDigit then
      let (n, rest) := leadingNumber (c :: t)
      .number (clamp n) :: tokens most rest
    else if isNameStart c then
      let name := (c :: t).takeWhile isNameCharacter
      .name name :: tokens most ((c :: t).drop name.length)
    else
      match signs.find? fun sign => Text.startsWith (c :: t) sign with
      | some sign => .sign sign :: tokens most ((c :: t).drop sign.length)
      | none => .sign [c] :: tokens most t

/-- The operators between two numbers with the level on which they join, the innermost first. -/
def binaryOperators : List (Text × Nat × BinaryOperator) :=
  [("*", 0, .multiply), ("/", 0, .divide), ("%", 0, .remainder), ("+", 1, .add),
    ("-", 1, .subtract), ("<<", 2, .shiftUp), (">>", 2, .shiftDown), ("<", 3, .less),
    ("<=", 3, .lessEqual), (">", 3, .greater), (">=", 3, .greaterEqual), ("==", 4, .equal),
    ("!=", 4, .notEqual), ("&", 5, .bitAnd), ("^", 6, .bitXor), ("|", 7, .bitOr)]

/-- The operator that a sign joins to an assignment: none for the plain sign. -/
def assignmentOperator? (sign : Text) : Option (Option BinaryOperator) :=
  if sign = "=" then some none
  else if sign.getLast? ≠ some '=' then none
  else
    match binaryOperators.lookup sign.dropLast with
    | some (level, operator) => if level = 3 ∨ level = 4 then none else some (some operator)
    | none => none

/-- Where in an expression something is read. -/
inductive Level where
  | assignment
  | choice
  | either
  | both
  | joined (level : Nat) (left : Expression)
  | binary (level : Nat)
  | operand

/-- The refusal of an expression in which something is missing. -/
def expecting (missing : Text) : Except Text α := .error ("expecting " ++ missing)

/-- Reads an expression, with at most this many steps inside each other. -/
def read : (steps : Nat) → Level → List Token → Except Text (Expression × List Token)
  | 0, _, _ => expecting "primary"
  | steps + 1, .assignment, tokens =>
    match tokens with
    | .name name :: .sign sign :: rest =>
      match assignmentOperator? sign with
      | some operator? => do
        let (value, rest) ← read steps .assignment rest
        return (.assignment name operator? value, rest)
      | none => read steps .choice tokens
    | tokens => read steps .choice tokens
  | steps + 1, .choice, tokens => do
    let (test, rest) ← read steps .either tokens
    match rest with
    | .sign ['?'] :: rest =>
      let (first, rest) ← read steps .assignment rest
      match rest with
      | .sign [':'] :: rest =>
        let (second, rest) ← read steps .choice rest
        return (.choice test first second, rest)
      | _ => expecting "':'"
    | rest => return (test, rest)
  | steps + 1, .either, tokens => do
    let (left, rest) ← read steps .both tokens
    match rest with
    | .sign ['|', '|'] :: rest =>
      let (right, rest) ← read steps .either rest
      return (.either left right, rest)
    | rest => return (left, rest)
  | steps + 1, .both, tokens => do
    let (left, rest) ← read steps (.binary 7) tokens
    match rest with
    | .sign ['&', '&'] :: rest =>
      let (right, rest) ← read steps .both rest
      return (.both left right, rest)
    | rest => return (left, rest)
  | steps + 1, .binary level, tokens => do
    let (left, rest) ← match level with
      | 0 => read steps .operand tokens
      | level + 1 => read steps (.binary level) tokens
    read steps (.joined level left) rest
  | steps + 1, .joined level left, tokens =>
    match tokens with
    | .sign sign :: rest =>
      match binaryOperators.lookup sign with
      | some (own, operator) =>
        if own = level then do
          let (right, rest) ← match level with
            | 0 => read steps .operand rest
            | level + 1 => read steps (.binary level) rest
          read steps (.joined level (.binary operator left right)) rest
        else .ok (left, tokens)
      | none => .ok (left, tokens)
    | tokens => .ok (left, tokens)
  | steps + 1, .operand, tokens =>
    let unary (operator : UnaryOperator) (rest : List Token) :
        Except Text (Expression × List Token) := do
      let (operand, rest) ← read steps .operand rest
      return (.unary operator operand, rest)
    match tokens with
    | .number value :: rest => .ok (.number value, rest)
    | .name name :: rest => .ok (.variable name, rest)
    | .sign ['('] :: rest => do
      let (inner, rest) ← read steps .assignment rest
      match rest with
      | .sign [')'] :: rest => return (inner, rest)
      | _ => expecting "')'"
    | .sign ['+'] :: rest => unary .plus rest
    | .sign ['-'] :: rest => unary .minus rest
    | .sign ['!'] :: rest => unary .isZero rest
    | .sign ['~'] :: rest => unary .bitNot rest
    | _ => expecting "primary"

def parse (t : Text) : Except Text Expression := do
  let found := tokens (t.length + 1) t
  let (expression, rest) ← read (24 * found.length + 24) .assignment found
  if rest.isEmpty then return expression else expecting "EOF"

/-- Why an expression has no value. -/
inductive Fault where
  | expression (reason : Text)
  | illegalNumber (value : Text)
  deriving DecidableEq, Repr

/-- The value of a variable, among those that have been set and those of the shell. -/
def lookup (value? : Text → Option Text) (set : List (Text × Int)) (name : Text) :
    Except Fault Int :=
  match set.lookup name with
  | some n => .ok n
  | none =>
    let t := (value? name).getD []
    match ofValue? t with
    | some n => .ok n
    | none => .error (.illegalNumber t)

/-- The value of an expression and the variables that have been set, the last one first. -/
def evaluate (value? : Text → Option Text) :
    Expression → List (Text × Int) → Except Fault (Int × List (Text × Int))
  | .number n, set => .ok (n, set)
  | .variable name, set => do return (← lookup value? set name, set)
  | .unary operator operand, set => do
    let (n, set) ← evaluate value? operand set
    return (UnaryOperator.value operator n, set)
  | .binary operator left right, set => do
    let (a, set) ← evaluate value? left set
    let (b, set) ← evaluate value? right set
    match BinaryOperator.value? operator a b with
    | some n => return (n, set)
    | none => throw (.expression "division by zero")
  | .both left right, set => do
    let (a, set) ← evaluate value? left set
    if a = 0 then return (0, set)
    let (b, set) ← evaluate value? right set
    return (ofBool (b ≠ 0), set)
  | .either left right, set => do
    let (a, set) ← evaluate value? left set
    if a ≠ 0 then return (1, set)
    let (b, set) ← evaluate value? right set
    return (ofBool (b ≠ 0), set)
  | .choice test first second, set => do
    let (a, set) ← evaluate value? test set
    if a ≠ 0 then evaluate value? first set else evaluate value? second set
  | .assignment name operator? value, set => do
    let (b, set) ← evaluate value? value set
    match operator? with
    | none => return (b, (name, b) :: set)
    | some operator =>
      let a ← lookup value? set name
      match BinaryOperator.value? operator a b with
      | some n => return (n, (name, n) :: set)
      | none => throw (.expression "division by zero")

end Arithmetic

end Shell

end SampleHarvest
