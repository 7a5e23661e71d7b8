import SampleHarvest.Sample.Segmentation

/-!
# Standalone sources

A unit becomes a source file of its own: the prologue, the unit, and the epilogue where the dialect
needs what the prologue opened to be closed. The file header is cut off, and in dialects with one
symbol for each file the shared symbol is renamed.

The header is looked for in the lines put together, and renaming works on each line by itself.
-/

namespace SampleHarvest

namespace DialectRules

/-- The lines without the file header; all of them if no line ends a header. -/
def trimHeader (rules : DialectRules) (lines : List Line) : List Line :=
  match lines.dropWhile fun line => !rules.isHeaderEnd line with
  | [] => lines
  | endLine :: rest =>
    match rules.headerCut with
    | .keepEndLine => endLine :: rest
    | .dropEndLine => rest

end DialectRules

/-- A symbol and what stands in its place. -/
structure Rename where
  source : Text
  replacement : Text
  deriving DecidableEq, Repr

/-- The line with every occurrence of the symbol renamed. -/
def Rename.apply (rename : Rename) (line : Line) : Line :=
  Text.replaceAll rename.source rename.replacement line

/-- The rename of a sample whose shared symbol is given, in dialects that rename it. -/
def DialectRules.rename? (rules : DialectRules) (symbol : Text) : Option Rename :=
  rules.renameTarget?.map fun target => ⟨symbol, target⟩

namespace Sample

/-- The lines from which the standalone source of a unit is made. -/
def assemble (sample : Sample) (rules : DialectRules) (u : SampleUnit) : List Line :=
  sample.prologue ++ u.body ++ if rules.requiresEpilogue then sample.epilogue else []

def standalone (sample : Sample) (rules : DialectRules) (u : SampleUnit)
    (rename? : Option Rename) : List Line :=
  let lines := rules.trimHeader (sample.assemble rules u)
  match rename? with
  | none => lines
  | some rename => lines.map rename.apply

end Sample

end SampleHarvest
