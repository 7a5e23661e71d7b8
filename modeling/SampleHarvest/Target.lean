import SampleHarvest.Dialect.Rules
import SampleHarvest.Path.Basic

/-!
# Targets

A reference says where the example is published: in the folder of the reference, marked with the
suffix of the dialect, under the file name up to its first dot.

References come out of source files and may say anything. A target is contained if its path is
relative and climbs nowhere, and only then does it have a place below an output root.
-/

namespace SampleHarvest

/-- A folder below the output root and the name of the document in it. -/
structure Target where
  folder : Text
  stem : Text
  deriving DecidableEq, Repr

namespace Target

/-- The folder name that marks specification examples. -/
def examplesName : Text := "examples"

/-- The path of the document below the output root. -/
def documentPath (target : Target) : Path :=
  if target.folder.isEmpty then target.stem ++ ".md"
  else target.folder ++ "/" ++ target.stem ++ ".md"

/-- Whether the document lies below every output root. -/
def isContained (target : Target) : Bool :=
  !target.stem.isEmpty && (Path.components target.documentPath).all Path.Component.isName

/-- The place of the document below an output root, if the target is contained. -/
def resolveUnder? (target : Target) (root : Path) : Option Path :=
  if target.isContained then some (Path.join root target.documentPath) else none

/-- The names with the suffix put to the last one. -/
def suffixLast (suffix : Text) : List Text → List Text
  | [] => []
  | [name] => [name ++ suffix]
  | name :: names => name :: suffixLast suffix names

/-- The names with the suffix put to every `examples`, or to the last name if there is none. -/
def suffixFolder (suffix : Text) (names : List Text) : List Text :=
  if names.contains examplesName then
    names.map fun name => if name = examplesName then name ++ suffix else name
  else suffixLast suffix names

/-- A reference with slashes for backslashes and no blanks around it. -/
def normalize (reference : Text) : Text :=
  reference.trim.map fun c => if c = '\\' then '/' else c

def ofReference (reference suffix : Text) : Target :=
  let normal := normalize reference
  let (folder, file) := (normal.splitLast? '/').getD ([], normal)
  let names := (folder.splitOn '/').filter fun name => !name.isEmpty
  { folder := Text.joinWith "/" (suffixFolder suffix names)
    stem := file.takeWhile fun c => c ≠ '.' }

end Target

end SampleHarvest
