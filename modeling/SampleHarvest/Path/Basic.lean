import SampleHarvest.Text.Basic

/-!
# Paths

A path is a text in which slashes separate names. Its components leave out repeated slashes and all
dots that mean the folder itself, except one at the very front; they decide what the path names and
how paths are ordered.

The text of a path is kept as it was given. Joining, taking the parent and changing the extension
work on the text and touch nothing else in it.
-/

namespace SampleHarvest

abbrev Path := Text

namespace Path

/-- What a part of a path means. -/
inductive Component where
  | root
  /-- A dot at the front of a relative path. -/
  | here
  /-- Two dots: the folder above. -/
  | up
  | name (text : Text)
  deriving DecidableEq, Repr

def Component.isName : Component → Bool
  | .name _ => true
  | _ => false

/-- Whether a path begins at the root. -/
def isAbsolute (path : Path) : Bool := Text.startsWith path "/"

/-- The component that a part between slashes stands for, after the first part. -/
def Component.ofPart? (part : Text) : Option Component :=
  if part = [] ∨ part = "." then none else if part = ".." then some .up else some (.name part)

def components (path : Path) : List Component :=
  match Text.splitOn '/' path with
  | [] => []
  | first :: parts =>
    let front :=
      if first = [] then (if isAbsolute path then [.root] else [])
      else if first = "." then [.here]
      else (Component.ofPart? first).toList
    front ++ parts.filterMap Component.ofPart?

/-- The order of components: root, dot, two dots, then names by their characters. -/
def Component.le : Component → Component → Bool
  | .root, _ => true
  | _, .root => false
  | .here, _ => true
  | _, .here => false
  | .up, _ => true
  | _, .up => false
  | .name a, .name b => Text.le a b

/-- Whether one list of components comes before another or equals it. -/
def componentsLe : List Component → List Component → Bool
  | [], _ => true
  | _ :: _, [] => false
  | a :: as, b :: bs => if a = b then componentsLe as bs else a.le b

/-- The order of paths, which goes by components and not by the whole text. -/
def le (a b : Path) : Bool := componentsLe (components a) (components b)

/-- Whether a part between slashes adds no component behind others. -/
def isIdlePart (part : Text) : Bool := part.isEmpty || part = "."

/-- The parts without idle ones at the end. The first part always stays. -/
def trimParts (parts : List Text) : List Text :=
  match parts with
  | [] => []
  | first :: rest => first :: (rest.reverse.dropWhile isIdlePart).reverse

def ofParts : List Text → Path
  | [[]] => "/"
  | parts => Text.joinWith "/" parts

/-- The path of the folder that holds what the path names; none for the root and the empty path. -/
def parent? (path : Path) : Option Path :=
  match trimParts (Text.splitOn '/' path) with
  | [] => none
  | [first] => if first.isEmpty then none else some []
  | parts => some (ofParts (trimParts parts.dropLast))

/-- The last component, if it is an ordinary name. -/
def fileName? (path : Path) : Option Text :=
  match (components path).getLast? with
  | some (.name text) => some text
  | _ => none

/-- A file name cut at its last dot into stem and extension. A dot at the front does not count. -/
def splitName (name : Text) : Text × Option Text :=
  match Text.splitLast? '.' name with
  | some (stem, extension) => if stem.isEmpty then (name, none) else (stem, some extension)
  | none => (name, none)

def stem? (path : Path) : Option Text := (fileName? path).map fun name => (splitName name).1

/-- What follows the last dot of the file name. -/
def extension? (path : Path) : Option Text := (fileName? path).bind fun name => (splitName name).2

def join (base rest : Path) : Path :=
  if isAbsolute rest then rest
  else if base.isEmpty || Text.endsWith base "/" then base ++ rest
  else base ++ "/" ++ rest

/-- The path with another extension; a path without a file name stays as it is. -/
def withExtension (path : Path) (extension : Text) : Path :=
  match stem? path with
  | none => path
  | some stem =>
    let parts := trimParts (Text.splitOn '/' path)
    ofParts (parts.dropLast ++ [stem ++ "." ++ extension])

end Path

end SampleHarvest
