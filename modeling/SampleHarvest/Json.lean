import SampleHarvest.Text.Decimal

/-!
# JSON

Values and their two written forms: on one line without blanks, and spread over lines with two
spaces for each level. Members stay in the order in which they are given.

In a string the quote, the backslash and the control characters below U+0020 are escaped, and
nothing else.
-/

namespace SampleHarvest

/-- A value of the data format. -/
inductive Json where
  | null
  | bool (value : Bool)
  | number (value : Int)
  | string (value : Text)
  | array (elements : List Json)
  | object (members : List (Text × Json))

namespace Json

def smallHexDigit (n : Nat) : Char := if n < 10 then Char.ofNat (48 + n) else Char.ofNat (87 + n)

/-- A character inside a string. -/
def escapeChar (c : Char) : Text :=
  if c = '\x22' then ['\\', '\x22']
  else if c = '\\' then ['\\', '\\']
  else if c = '\x08' then ['\\', 'b']
  else if c = '\x0c' then ['\\', 'f']
  else if c = '\n' then ['\\', 'n']
  else if c = '\r' then ['\\', 'r']
  else if c = '\t' then ['\\', 't']
  else if c.toNat < 0x20 then
    ['\\', 'u', '0', '0', smallHexDigit (c.toNat / 16), smallHexDigit (c.toNat % 16)]
  else [c]

/-- The written form of a text. -/
def stringText (t : Text) : Text := '\x22' :: (t.flatMap escapeChar ++ ['\x22'])

/-- The written form of a value that has no parts. -/
def atomText : Json → Text
  | null => "null"
  | bool true => "true"
  | bool false => "false"
  | number value => Text.ofInt value
  | string value => stringText value
  | array _ => "[]"
  | object _ => "\x7b\x7d"

mutual

/-- The form on one line. -/
def compact : Json → Text
  | array elements => '[' :: (Text.joinWith "," (compactAll elements) ++ ['\x5d'])
  | object members => '\x7b' :: (Text.joinWith "," (compactMembers members) ++ ['\x7d'])
  | atom => atomText atom

/-- The elements of an array, each on one line. -/
def compactAll : List Json → List Text
  | [] => []
  | value :: values => compact value :: compactAll values

/-- The members of an object, each on one line. -/
def compactMembers : List (Text × Json) → List Text
  | [] => []
  | (name, value) :: members =>
    (stringText name ++ ":" ++ compact value) :: compactMembers members

end

def newLine (level : Nat) : Text := '\n' :: List.replicate (2 * level) ' '

/-- Parts on lines of their own between two brackets, one level deeper than the brackets. -/
def block (opening closing : Char) (level : Nat) (parts : List Text) : Text :=
  opening :: (newLine (level + 1) ++ Text.joinWith (',' :: newLine (level + 1)) parts ++
    newLine level ++ [closing])

mutual

/-- The form over several lines, for a value that stands at this level. -/
def prettyAt (level : Nat) : Json → Text
  | array (value :: values) =>
    block '[' '\x5d' level (prettyAt (level + 1) value :: prettyAll (level + 1) values)
  | object ((name, value) :: members) =>
    block '\x7b' '\x7d' level
      ((stringText name ++ ": " ++ prettyAt (level + 1) value) ::
        prettyMembers (level + 1) members)
  | atom => atomText atom

/-- The elements of an array that stand at this level. -/
def prettyAll (level : Nat) : List Json → List Text
  | [] => []
  | value :: values => prettyAt level value :: prettyAll level values

/-- The members of an object that stand at this level. -/
def prettyMembers (level : Nat) : List (Text × Json) → List Text
  | [] => []
  | (name, value) :: members =>
    (stringText name ++ ": " ++ prettyAt level value) :: prettyMembers level members

end

/-- The form over several lines. -/
def pretty (value : Json) : Text := prettyAt 0 value

end Json

end SampleHarvest
