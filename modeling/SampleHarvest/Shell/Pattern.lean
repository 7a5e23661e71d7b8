import SampleHarvest.Disk.Basic
import SampleHarvest.Shell.CharacterSet

/-!
# Patterns

A pattern stands for texts: a star for any characters, a question mark for one and brackets for one
of a set. In a row of characters each one says whether it can have such a meaning; quoted ones
cannot.

In the path of a file a pattern stands for names, and no star goes over a slash or begins a hidden
name.
-/

namespace SampleHarvest

namespace Shell

/-- Characters of a word, each with whether it can have a meaning in a pattern. -/
abbrev Field := List (Char × Bool)

namespace Field

def text (field : Field) : Text := field.map Prod.fst

/-- The field in which no character of a text has a meaning. -/
def literal (t : Text) : Field := t.map fun c => (c, false)

/-- The field in which all characters of a text can have a meaning. -/
def active (t : Text) : Field := t.map fun c => (c, true)

end Field

/-- A step of a pattern. -/
inductive Wildcard where
  | one (set : CharacterSet)
  | several
  deriving DecidableEq, Repr

/-- Reads the ranges of a set up to its closing bracket, at most this many. -/
def fieldRanges : (most : Nat) → (isFirst : Bool) → Field → Option (List (Char × Char) × Field)
  | 0, _, _ => none
  | _, _, [] => none
  | most + 1, isFirst, (c, isActive) :: field =>
    if c = '\x5d' ∧ !isFirst ∧ isActive then some ([], field)
    else
      match classAt? (Field.text ((c, isActive) :: field)) with
      | some (ranges, rest) =>
        (fieldRanges most false (field.drop (field.length - rest.length))).map
          fun (others, rest) => (ranges ++ others, rest)
      | none =>
        match field with
        | ('-', true) :: (high, isHighActive) :: rest =>
          if high = '\x5d' ∧ isHighActive then
            (fieldRanges most false field).map fun (others, rest) => ((c, c) :: others, rest)
          else (fieldRanges most false rest).map fun (others, rest) => ((c, high) :: others, rest)
        | _ => (fieldRanges most false field).map fun (others, rest) => ((c, c) :: others, rest)

/-- Reads a set behind its opening bracket. -/
def fieldSet? (field : Field) : Option (CharacterSet × Field) :=
  match field with
  | ('!', true) :: rest =>
    (fieldRanges (rest.length + 1) true rest).map fun (ranges, rest) => (⟨true, ranges⟩, rest)
  | _ =>
    (fieldRanges (field.length + 1) true field).map fun (ranges, rest) => (⟨false, ranges⟩, rest)

/-- The steps of a pattern, of which at most this many are read. A backslash takes away the meaning
of the next character. -/
def wildcards : (most : Nat) → Field → List Wildcard
  | 0, _ => []
  | _, [] => []
  | most + 1, (c, isActive) :: field =>
    if !isActive then .one (.single c) :: wildcards most field
    else if c = '*' then .several :: wildcards most field
    else if c = '?' then .one .all :: wildcards most field
    else
      match c, field with
      | '\\', (d, _) :: field => .one (.single d) :: wildcards most field
      | '[', field =>
        match fieldSet? field with
        | some (set, rest) => .one set :: wildcards most rest
        | none => .one (.single '[') :: wildcards most field
      | c, field => .one (.single c) :: wildcards most field

/-- The steps of a field as a pattern. -/
def Field.wildcards (field : Field) : List Wildcard := Shell.wildcards (field.length + 1) field

def fits : List Wildcard → Text → Bool
  | [], t => t.isEmpty
  | .one set :: pattern, t =>
    match t with
    | [] => false
    | c :: t => set.has c && fits pattern t
  | .several :: pattern, t =>
    let rec anywhere : Text → Bool
      | [] => fits pattern []
      | c :: t => fits pattern (c :: t) || anywhere t
    anywhere t

/-- Whether a field can stand for something else than itself. -/
def Field.isPattern (field : Field) : Bool :=
  field.any fun (c, isActive) => isActive && (c == '*' || c == '?' || c == '[')

/-- The parts of a field between slashes. -/
def Field.parts : Field → List Field
  | [] => [[]]
  | (c, isActive) :: field =>
    if c = '/' then [] :: parts field
    else
      match parts field with
      | [] => [[(c, isActive)]]
      | part :: others => ((c, isActive) :: part) :: others

/-- The names in a folder of the disk that fit a pattern, in order. -/
def namesIn (disk : Disk) (folder : Text) (pattern : Field) : List Text :=
  match disk.node (if folder.isEmpty then ['.'] else Text.ofRaw folder) with
  | .ok (.folder entries) =>
    let isHidden := (pattern.head?.map Prod.fst) == some '.'
    let names : List Text := (entries.map fun entry => Text.toRaw entry.1)
    let all : List Text := if isHidden then ['.'] :: ['.', '.'] :: names else names
    let steps := pattern.wildcards
    Text.sort (all.filter fun name => (isHidden || !Text.startsWith name ['.']) && fits steps name)
  | _ => []

/-- The paths that go on from a folder through these parts. -/
def pathsFrom (disk : Disk) : (folder : Text) → List Field → List Text
  | folder, [] => [folder]
  | folder, [part] =>
    if part.isPattern then (namesIn disk folder part).map (folder ++ ·)
    else
      let path := folder ++ part.text
      if disk.has (Text.ofRaw path) then [path] else []
  | folder, part :: parts =>
    if part.isPattern then
      (namesIn disk folder part).flatMap fun name => pathsFrom disk (folder ++ name ++ ['/']) parts
    else pathsFrom disk (folder ++ part.text ++ ['/']) parts

/-- The paths that a field stands for: those that fit it as a pattern, or itself if none does. -/
def Field.paths (disk : Disk) (field : Field) : List Text :=
  if !field.isPattern then [field.text]
  else
    let found := pathsFrom disk [] field.parts
    if found.isEmpty then [field.text] else found

end Shell

end SampleHarvest
