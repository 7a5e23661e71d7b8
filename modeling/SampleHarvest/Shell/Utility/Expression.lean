import SampleHarvest.Shell.Check
import SampleHarvest.Shell.Regex.Parse
import SampleHarvest.Shell.Utility.Basic

/-!
# Expressions of words

Each word is an operand or an operator. A value is a text; where an operator needs numbers, both its
operands have to be such. The status says whether the value is empty or zero.
-/

namespace SampleHarvest

namespace Shell

namespace Utility

def wholeNumber? (t : Text) : Option Int :=
  match t with
  | '-' :: digits => (Text.toNat? digits).map fun n => -(n : Int)
  | digits => (Text.toNat? digits).map Int.ofNat

/-- Whether a value is empty or zero. -/
def isNull (value : Text) : Bool :=
  let digits := if value.head? = some '-' then value.drop 1 else value
  value.isEmpty || (!digits.isEmpty && digits.all (· == '0'))

def truthText (b : Bool) : Text := if b then ['1'] else ['0']

/-- The value of an operator between two values. -/
def applyOperator (operator a b : Text) : Except Text Text :=
  let number (act : Int → Int → Except Text Int) : Except Text Text :=
    match wholeNumber? a, wholeNumber? b with
    | some a, some b => (act a b).map Text.ofInt
    | _, _ => .error "non-integer argument"
  let compare (numbers : Int → Int → Bool) (texts : Bool) : Except Text Text :=
    match wholeNumber? a, wholeNumber? b with
    | some a, some b => .ok (truthText (numbers a b))
    | _, _ => .ok (truthText texts)
  if operator = "+" then number fun a b => .ok (a + b)
  else if operator = "-" then number fun a b => .ok (a - b)
  else if operator = "*" then number fun a b => .ok (a * b)
  else if operator = "/" then
    number fun a b => if b = 0 then .error "division by zero" else .ok (Int.tdiv a b)
  else if operator = "%" then
    number fun a b => if b = 0 then .error "division by zero" else .ok (Int.tmod a b)
  else if operator = "<" then compare (fun a b => a < b) (a != b && Text.le a b)
  else if operator = "<=" then compare (fun a b => a ≤ b) (Text.le a b)
  else if operator = ">" then compare (fun a b => b < a) (a != b && Text.le b a)
  else if operator = ">=" then compare (fun a b => b ≤ a) (Text.le b a)
  else if operator = "!=" then compare (fun a b => a != b) (a != b)
  else compare (fun a b => a == b) (a == b)

/-- The part of a text that a pattern fits from its front on: a group of it if it has one, and else
the number of characters. -/
def matchFront (t pattern : Text) : Except Text Text := do
  let regex ← Regex.parse { isExtended := false } pattern
  let hasGroup := Text.contains pattern "\\("
  match (Regex.sequence (.place .textStart) regex).find? none t with
  | some found =>
    if hasGroup then return (found.groups.lookup 1).getD []
    else return Text.ofNat found.fitted.length
  | none => return if hasGroup then [] else ['0']

/-- The operators of each level, from the loosest to the closest. -/
def operatorLevels : List (List Text) :=
  [["|"], ["&"], ["<", "<=", "=", "==", "!=", ">=", ">"], ["+", "-"], ["*", "/", "%"], [":"]]

/-- Evaluates the words of a level and those behind it that belong to it. -/
def evaluateWords : (steps : Nat) → (level : Nat) → (last : Text) → List Text →
    Except Text (Text × Text × List Text)
  | 0, _, _, _ => .error "syntax error"
  | steps + 1, level, last, words => do
    match operatorLevels[level]? with
    | some operators =>
      let (first, last, words) ← evaluateWords steps (level + 1) last words
      let rec more :
          (rounds : Nat) → Text → Text → List Text → Except Text (Text × Text × List Text)
        | 0, value, last, words => .ok (value, last, words)
        | rounds + 1, value, last, words => do
          match words with
          | operator :: rest =>
            if !operators.contains operator then return (value, last, words)
            let (second, last, rest) ← evaluateWords steps (level + 1) operator rest
            let value ←
              if operator = "|" then
                pure (if !isNull value then value else if isNull second then ['0'] else second)
              else if operator = "&" then
                pure (if isNull value ∨ isNull second then ['0'] else value)
              else if operator = ":" then matchFront value second
              else applyOperator operator value second
            more rounds value last rest
          | [] => return (value, last, words)
      more words.length first last words
    | none =>
      let operand (last : Text) : List Text → Except Text (Text × Text × List Text)
        | [] => .error ("syntax error: missing argument after " ++ quoted last)
        | words => evaluateWords steps operatorLevels.length last words
      match words with
      | [] => .error ("syntax error: missing argument after " ++ quoted last)
      | word :: rest =>
        if word = "(" then
          let (value, last, rest) ← evaluateWords steps 0 word rest
          match rest with
          | [')'] :: rest => return (value, [')'], rest)
          | other :: _ => throw ("syntax error: expecting ')' instead of " ++ quoted other)
          | [] => throw ("syntax error: expecting ')' after " ++ quoted last)
        else if word = ")" then throw "syntax error: unexpected ')'".toList
        else if word = "+" ∧ !rest.isEmpty then return (rest.headD [], rest.headD [], rest.drop 1)
        else if word = "length" ∧ !rest.isEmpty then
          let (t, last, rest) ← operand word rest
          return (Text.ofNat t.length, last, rest)
        else if word = "match" ∧ !rest.isEmpty then
          let (t, last, rest) ← operand word rest
          let (pattern, last, rest) ← operand last rest
          return (← matchFront t pattern, last, rest)
        else if word = "index" ∧ !rest.isEmpty then
          let (t, last, rest) ← operand word rest
          let (set, last, rest) ← operand last rest
          let front := t.takeWhile fun c => !set.any (· == c)
          let place := if front.length = t.length then 0 else front.length + 1
          return (Text.ofNat place, last, rest)
        else if word = "substr" ∧ !rest.isEmpty then
          let (t, last, rest) ← operand word rest
          let (start, last, rest) ← operand last rest
          let (count, last, rest) ← operand last rest
          match wholeNumber? start, wholeNumber? count with
          | some start, some count =>
            if start < 1 ∨ count < 1 then return ([], last, rest)
            return ((t.drop (start.toNat - 1)).take count.toNat, last, rest)
          | _, _ => return ([], last, rest)
        else return (word, word, rest)

/-- Evaluates its arguments as an expression. -/
def expr : Utility := fun _ words => do
  let words := if words.head? = some ['-', '-'] then words.drop 1 else words
  if words.isEmpty then misuse "missing operand" 2
  else
    match evaluateWords (8 * words.length + 8) 0 [] words with
    | .error message => abort message 2
    | .ok (value, _, rest) =>
      match rest with
      | extra :: _ => abort ("syntax error: unexpected argument " ++ quoted extra) 2
      | [] =>
        putLine value
        return if isNull value then 1 else 0

end Utility

end Shell

end SampleHarvest
