import SampleHarvest.Shell.Regex.Basic

/-!
# Record programs

A record program is a list of rules. A rule says for which records of a text it is meant and what is
done with them. A record has fields, which are numbered from one on; the field with the number zero
is the record.
-/

namespace SampleHarvest

namespace Shell

namespace Record

/-- What two values are put together by. -/
inductive Operator where
  | add
  | subtract
  | multiply
  | divide
  | modulo
  | power
  deriving DecidableEq

inductive Comparison where
  | less
  | atMost
  | equal
  | unequal
  | more
  | atLeast
  deriving DecidableEq

mutual

inductive Expr where
  | number (x : Float)
  | text (t : Text)
  | pattern (regex : Regex)
  | value (place : Place)
  | assign (place : Place) (operator? : Option Operator) (value : Expr)
  /-- A place gets one more or less; the value is the one before or behind. -/
  | count (place : Place) (isUp isBefore : Bool)
  | choice (condition first second : Expr)
  | both (first second : Expr)
  | either (first second : Expr)
  | not (inner : Expr)
  | isIn (keys : List Expr) (table : Text)
  | fits (inner pattern : Expr) (isInverted : Bool)
  | compare (comparison : Comparison) (first second : Expr)
  | join (first second : Expr)
  | calculate (operator : Operator) (first second : Expr)
  | negative (inner : Expr)
  | positive (inner : Expr)
  | call (name : Text) (arguments : List Expr)
  | builtin (name : Text) (arguments : List Expr)
  /-- The next record is read, from where a letter says: the input, a file or a command. -/
  | read (letter : Char) (source : Expr) (target? : Option Place)
  | group (inner : List Expr)

inductive Place where
  | named (name : Text)
  | element (table : Text) (keys : List Expr)
  | field (number : Expr)

end

/-- Where something is printed. -/
inductive Target where
  | output
  | file (name : Expr) (appends : Bool)
  | command (name : Expr)

inductive Statement where
  | expression (inner : Expr)
  | print (arguments : List Expr) (hasFormat : Bool) (target : Target)
  | condition (condition : Expr) (first : Statement) (second? : Option Statement)
  | whileTrue (condition : Expr) (body : Statement)
  | doWhile (body : Statement) (condition : Expr)
  /-- Something first, and then again and again while something is true, with a step behind. -/
  | loop (first? : Option Statement) (condition? : Option Expr) (step? : Option Statement)
    (body : Statement)
  | forKeys (place : Place) (table : Text) (body : Statement)
  | block (statements : List Statement)
  | next
  | nextFile
  | leave (status? : Option Expr)
  | giveBack (value? : Option Expr)
  | breakLoop
  | nextRound
  | delete (table : Text) (keys : List Expr)

/-- Which records a rule is meant for. -/
inductive Occasion where
  /-- None; it is followed before the first one. -/
  | beginning
  /-- None; it is followed behind the last one. -/
  | ending
  | always
  | condition (condition : Expr)
  | range (first last : Expr)

/-- A rule; without a statement the record is printed. -/
structure Rule where
  occasion : Occasion
  body? : Option Statement

structure Function where
  name : Text
  parameters : List Text
  body : Statement

structure Program where
  rules : List Rule := []
  functions : List Function := []

def Expr.regex? : Expr → Option Regex
  | .pattern found => some found
  | _ => none

end Record

end Shell

end SampleHarvest
