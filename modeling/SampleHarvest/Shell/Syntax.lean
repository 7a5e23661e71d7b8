import SampleHarvest.Text.Raw

/-!
# Scripts

A script is a row of commands. The words of a command are rows of parts: characters that stand for
themselves, and things to be put in when the command is run. Commands and words hold each other,
because a word can hold the output of commands.

All texts in a script are raw.
-/

namespace SampleHarvest

namespace Shell

/-- The part of a value that a pattern takes away. -/
inductive Side where
  | shortFront
  | longFront
  | shortEnd
  | longEnd
  deriving DecidableEq, Repr

/-- What a missing value leads to. -/
inductive Fallback where
  | substitute
  | assign
  | complain
  | replace
  deriving DecidableEq, Repr

mutual

inductive Part where
  | text (isQuoted : Bool) (value : Text)
  | parameter (isQuoted : Bool) (name : Text) (use : Use)
  | output (isQuoted : Bool) (command? : Option Command)
  | number (isQuoted : Bool) (expression : List Part)

/-- How the value of a parameter is used. -/
inductive Use where
  | value
  | size
  | withDefault (coversEmpty : Bool) (fallback : Fallback) (word : List Part)
  | trimmed (side : Side) (pattern : List Part)
  | invalid

/-- What a descriptor leads to. -/
inductive Target where
  | input (file : List Part)
  | output (file : List Part)
  | append (file : List Part)
  | both (file : List Part)
  | same (isInput : Bool) (descriptor : List Part)
  | here (content : List Part)

inductive Command where
  | simple (line : Nat) (assignments : List (Text × List Part)) (words : List (List Part))
      (redirections : List (Nat × Target))
  | pipeline (commands : List Command)
  | negated (inner : Command)
  | both (first second : Command)
  | either (first second : Command)
  | sequence (first second : Command)
  | background (inner : Command)
  | subshell (line : Nat) (inner : Command) (redirections : List (Nat × Target))
  | redirected (line : Nat) (inner : Command) (redirections : List (Nat × Target))
  | condition (test first : Command) (second? : Option Command)
  | loop (wanted : Bool) (test body : Command)
  | forEach (line : Nat) (name : Text) (words : List (List Part)) (body : Command)
  | choice (line : Nat) (word : List Part) (branches : List (List (List Part) × Option Command))
  | definition (name : Text) (body : Command)

end

/-- A row of parts without a blank between them. -/
abbrev Word := List Part

/-- Where a descriptor is to lead. -/
abbrev Redirection := Nat × Target

/-- The text of a word that is not quoted and has nothing to be put in. -/
def bareText? : Word → Option Text
  | [] => some []
  | .text false value :: parts => (bareText? parts).map (value ++ ·)
  | _ :: _ => none

/-- The text of a word that has nothing to be put in. -/
def plainText? : Word → Option Text
  | [] => some []
  | .text _ value :: parts => (plainText? parts).map (value ++ ·)
  | _ :: _ => none

/-- Whether a character can begin the name of a variable. -/
def isNameStart (c : Char) : Bool := c.isAlpha || c == '_'

/-- Whether a character can stand in the name of a variable. -/
def isNameCharacter (c : Char) : Bool := c.isAlphanum || c == '_'

def isName (t : Text) : Bool := t.head?.any isNameStart && t.all isNameCharacter

end Shell

end SampleHarvest
