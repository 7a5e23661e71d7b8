import SampleHarvest.Text.Basic

/-!
# Comma-separated values

Records of fields in the format of RFC 4180. A field is quoted only if it holds a comma, a quote, a
carriage return or a line feed; inside quotes a quote is written twice. Every record ends with a
carriage return and a line feed.

Reading refuses what is not in the format; of what writing produces it gives the records back.
-/

namespace SampleHarvest

namespace Csv

/-- The fields of one line of a table. -/
abbrev Record := List Text

/-- Whether a character cannot stand in a field without quotes. -/
def isSpecial (c : Char) : Bool := c == ',' || c == '\x22' || c == '\r' || c == '\n'

/-- A text with every quote written twice. -/
def doubleQuotes (field : Text) : Text :=
  field.flatMap fun c => if c = '\x22' then ['\x22', '\x22'] else [c]

/-- The written form of a field. -/
def fieldText (field : Text) : Text :=
  if field.any isSpecial then '\x22' :: (doubleQuotes field ++ ['\x22']) else field

/-- The written form of a record. -/
def recordText (record : Record) : Text :=
  Text.joinWith "," (record.map fieldText) ++ ['\r', '\n']

/-- The written form of records, one after the other. -/
def render (records : List Record) : Text := records.flatMap recordText

/-- Where a reader stands. -/
inductive Place where
  | recordStart
  | fieldStart
  | plain
  | quoted
  | afterQuote
  | afterReturn
  deriving DecidableEq, Repr

/-- What a reader has gathered: the characters of the field, the fields of the record and the
records, each from the last to the first. -/
structure Gathered where
  field : List Char
  /-- The fields of the record that is being read. -/
  record : List Text
  records : List Record
  deriving DecidableEq, Repr

namespace Gathered

def push (g : Gathered) (c : Char) : Gathered := { g with field := c :: g.field }

def endField (g : Gathered) : Gathered :=
  { g with field := [], record := g.field.reverse :: g.record }

def endRecord (g : Gathered) : Gathered :=
  let g := g.endField
  { g with record := [], records := g.record.reverse :: g.records }

end Gathered

def Place.isStart (place : Place) : Bool := place = .recordStart || place = .fieldStart

/-- Reads from a place; the text has to end where a record could start. -/
def readFrom? : Place → Gathered → Text → Option (List Record)
  | .recordStart, g, [] => some g.records.reverse
  | _, _, [] => none
  | place, g, c :: t =>
    match place with
    | .quoted =>
      if c = '\x22' then readFrom? .afterQuote g t else readFrom? .quoted (g.push c) t
    | .afterReturn => if c = '\n' then readFrom? .recordStart g.endRecord t else none
    | _ =>
      if c = ',' then readFrom? .fieldStart g.endField t
      else if c = '\r' then readFrom? .afterReturn g t
      else if c = '\n' then none
      else if c = '\x22' then
        if place.isStart then readFrom? .quoted g t
        else if place = .afterQuote then readFrom? .quoted (g.push c) t
        else none
      else if place = .afterQuote then none
      else readFrom? .plain (g.push c) t

def parse? (t : Text) : Option (List Record) := readFrom? .recordStart ⟨[], [], []⟩ t

end Csv

end SampleHarvest
