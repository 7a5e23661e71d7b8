import SampleHarvest.Dialect.Rules

/-!
# References of markers

A marker names its reference on its own line, or leaves that line empty and wraps the reference onto
the comment lines below it, which are then read without their leaders and put together.

A wrapped reference ends at a blank line, at the end of the comment and at the first line that is no
comment. A marker for which no text is found has no reference.
-/

namespace SampleHarvest

/-- What a comment line says, without its leader and without blanks around it. -/
def Line.commentText (line : Line) : Text :=
  let t := Text.trim line
  match t.after? "//" with
  | some rest => rest.trim
  | none => (t.dropLead "*").trim

namespace DialectRules

/-- Whether a wrapped reference stops before this line. -/
def endsReference (rules : DialectRules) (line : Line) : Bool :=
  let t := Text.trim line
  t.isEmpty || t.startsWith "*/" || !rules.isComment line

/-- The reference wrapped onto the lines below a marker. -/
def wrappedReference (rules : DialectRules) : List Line → Text
  | [] => []
  | line :: below =>
    if rules.endsReference line then [] else line.commentText ++ rules.wrappedReference below

/-- The reference of a line with the lines below it, if the line is a marker that has one. -/
def reference? (rules : DialectRules) (line : Line) (below : List Line) : Option Text :=
  match rules.markerValue? line with
  | none => none
  | some [] =>
    match rules.wrappedReference below with
    | [] => none
    | reference => some reference
  | some value => some value

/-- The reference of the marker at a position, if there is one. -/
def referenceAt? (rules : DialectRules) (lines : List Line) (index : Nat) : Option Text :=
  match lines.drop index with
  | [] => none
  | line :: below => rules.reference? line below

def isAggregated (rules : DialectRules) (lines : List Line) : Bool := lines.any rules.isMarker

end DialectRules

end SampleHarvest
