import SampleHarvest.Shell.Utility.Sort

/-!
# Columns of lines

Lines are cut to some of their characters or fields, put side by side, or broken where they get too
wide.
-/

namespace SampleHarvest

namespace Shell

namespace Utility

/-- A range of places, of which the first one has the number one. -/
structure Range where
  first : Nat
  last? : Option Nat
  deriving DecidableEq, Repr

def Range.has (range : Range) (place : Nat) : Bool :=
  range.first ≤ place && range.last?.all (place ≤ ·)

def range? (isFields : Bool) (t : Text) : Except Text Range :=
  let zero : Text :=
    if isFields then "fields are numbered from 1"
    else "byte/character positions are numbered from 1"
  let strange : Text :=
    (if isFields then "invalid field value " else "invalid byte/character position ") ++ quoted t
  let number (t : Text) : Except Text Nat :=
    match Text.toNat? t with
    | some 0 => .error zero
    | some n => .ok n
    | none => .error strange
  match Text.splitOn '-' t with
  | [[]] => .error zero
  | [one] => (number one).map fun n => ⟨n, some n⟩
  | [[], []] => .error "invalid range with no endpoint: -"
  | [front, back] => do
    let first ← if front.isEmpty then pure 1 else number front
    if back.isEmpty then return ⟨first, none⟩
    let last ← if front.isEmpty ∧ back = ['0'] then throw "invalid decreasing range".toList
      else number back
    if last < first then throw "invalid decreasing range".toList
    return ⟨first, some last⟩
  | _ => .error (if isFields then "invalid field range" else "invalid byte or character range")

def ranges (isFields : Bool) : List Text → Except Text (List Range)
  | [] => .ok []
  | t :: texts => do
    let range ← range? isFields t
    return range :: (← ranges isFields texts)

/-- The ranges in order, those that overlap or touch put together. -/
def mergeRanges (all : List Range) : List Range :=
  let sorted := all.mergeSort fun a b => a.first ≤ b.first
  let step (found : List Range) (range : Range) : List Range :=
    match found with
    | last :: others =>
      match last.last?, range.last? with
      | none, _ => found
      | some stop, none =>
        if range.first ≤ stop then ⟨last.first, none⟩ :: others else range :: found
      | some stop, some newStop =>
        if range.first ≤ stop then ⟨last.first, some (max stop newStop)⟩ :: others
        else range :: found
    | [] => [range]
  (sorted.foldl step []).reverse

/-- How lines are cut. -/
structure Cutting where
  ranges : List Range
  isInverted : Bool
  joint : Text

def Cutting.keeps (cutting : Cutting) (place : Nat) : Bool :=
  (cutting.ranges.any fun range => range.has place) != cutting.isInverted

def Cutting.kept (cutting : Cutting) (elements : List α) : List α :=
  (elements.zipIdx.filter fun entry => cutting.keeps (entry.2 + 1)).map Prod.fst

/-- The runs of characters that are kept, each of the characters of one range. -/
def Cutting.runs (cutting : Cutting) (line : Text) : List Text :=
  if cutting.isInverted then [cutting.kept line]
  else
    (mergeRanges cutting.ranges).filterMap fun range =>
      let part := line.drop (range.first - 1)
      let part := range.last?.elim part fun last => part.take (last + 1 - range.first)
      if part.isEmpty then none else some part

/-- Prints some columns of the lines of files. -/
def cut : Utility := fun _ words =>
  let names : List LongOption :=
    [⟨"bytes", 'b', true⟩, ⟨"characters", 'c', true⟩, ⟨"delimiter", 'd', true⟩,
      ⟨"fields", 'f', true⟩, ⟨"complement", '!', false⟩, ⟨"only-delimited", 's', false⟩,
      ⟨"output-delimiter", '=', true⟩, ⟨"zero-terminated", 'z', false⟩]
  withOptions { flags := "nsz", valued := "bcdf", names } words fun given => do
    let lists := given.options.filter fun entry => "bcf".toList.contains entry.1
    let isFields := given.has 'f'
    match lists with
    | [] => misuse "you must specify a list of bytes, characters, or fields"
    | _ :: _ :: _ => misuse "only one list may be specified"
    | [(_, list)] =>
      let delimiter := (given.value? 'd').getD ['\t']
      if 1 < delimiter.length then misuse "the delimiter must be a single character"
      else if (given.value? 'd').isSome ∧ !isFields then
        misuse "an input delimiter may be specified only when operating on fields"
      else if given.has 's' ∧ !isFields then
        misuse "suppressing non-delimited lines makes sense\n\tonly when operating on fields"
      else
        let isSeparator (c : Char) : Bool := c == ',' || c == ' ' || c == '\t'
        let parts := Text.splitOn ',' (list.map fun c => if isSeparator c then ',' else c)
        match ranges isFields parts with
        | .error message => misuse message
        | .ok ranges =>
          let separator := delimiter.headD '\x00'
          let joint := (given.value? '=').getD (if isFields then [separator] else [])
          let cutting : Cutting := { ranges, isInverted := given.has '!', joint }
          let stop : Char := if given.has 'z' then '\x00' else '\n'
          let shown (line : Text) : Text :=
            if !isFields then Text.joinWith joint (cutting.runs line) ++ [stop]
            else
              match Text.splitOn separator line with
              | [_] => if given.has 's' then [] else line ++ [stop]
              | fields => Text.joinWith joint (cutting.kept fields) ++ [stop]
          eachInput [] (fun _ content => put ((cutAt stop content).flatMap shown)) 0
            (inputs given.operands)

/-- The characters that a list of them means, with escapes. -/
def jointCharacters : Text → List Text
  | [] => []
  | '\\' :: 'n' :: t => ['\n'] :: jointCharacters t
  | '\\' :: 't' :: t => ['\t'] :: jointCharacters t
  | '\\' :: '0' :: t => [] :: jointCharacters t
  | '\\' :: '\\' :: t => ['\\'] :: jointCharacters t
  | c :: t => [c] :: jointCharacters t

/-- Texts put one after the other with joints between them, which are used in turn. -/
def joinInTurn (joints : List Text) : (next : Nat) → List Text → Text
  | _, [] => []
  | _, [t] => t
  | next, t :: texts =>
    t ++ (joints[next % joints.length]?.getD []) ++ joinInTurn joints (next + 1) texts

/-- The lines that some columns make side by side, at most this many. -/
def sideBySide (joints : List Text) : (most : Nat) → List (List Text) → Text
  | 0, _ => []
  | most + 1, columns =>
    if columns.all List.isEmpty then []
    else
      joinInTurn joints 0 (columns.map fun column => column.headD []) ++ ['\n'] ++
        sideBySide joints most (columns.map (·.drop 1))

def everyNth (step : Nat) (lines : List Text) (start : Nat) : List Text :=
  (lines.zipIdx.filter fun entry => entry.2 % step == start).map Prod.fst

/-- Prints the lines of files side by side, or those of one file on one line. -/
def paste : Utility := fun _ words =>
  withOptions
    { flags := "sz", valued := ['d']
      names := [⟨"delimiters", 'd', true⟩, ⟨"serial", 's', false⟩] }
    words fun given => do
      let joints := jointCharacters ((given.value? 'd').getD ['\t'])
      let joints := if joints.isEmpty then [[]] else joints
      let operands := inputs given.operands
      let shared := operands.filter (· == ['-'])
      let input ← if shared.isEmpty then pure [] else linesOf <$> readFrom 0
      let rec columns (place : Nat) : List Text → Act (Except Text (List (List Text)))
        | [] => return .ok []
        | operand :: operands => do
          let lines : Except DiskFault (List Text) ←
            if operand = "-" then pure (.ok (everyNth shared.length input place))
            else
              match ← readPath operand with
              | .ok content => pure (.ok (linesOf content))
              | .error fault => pure (.error fault)
          match lines with
          | .error fault => return .error (operand ++ ": " ++ fault.reason)
          | .ok lines =>
            match ← columns (if operand = "-" then place + 1 else place) operands with
            | .ok others => return .ok (lines :: others)
            | .error message => return .error message
      match ← columns 0 operands with
      | .error message => abort message
      | .ok found =>
        if given.has 's' then
          for lines in found do
            putLine (joinInTurn joints 0 lines)
        else
          let most := found.foldl (fun n lines => max n lines.length) 0
          put (sideBySide joints most found)
        return 0

/-- The width of a line behind one more character. -/
def widen (countsBytes : Bool) (width : Nat) (c : Char) : Nat :=
  if countsBytes then width + 1
  else if c = '\t' then width + (8 - width % 8)
  else if c = '\x08' then width - 1
  else if c = '\x0d' then 0
  else width + 1

def widthOf (countsBytes : Bool) (t : Text) : Nat := t.foldl (widen countsBytes) 0

/-- A line broken where it gets too wide; `held` is the part of the running line, from its last
character to its first. -/
def foldLine (countsBytes breaksAtBlanks : Bool) (most : Nat) : (held : Text) → Text → Text
  | held, [] => held.reverse
  | held, c :: line =>
    let width := widthOf countsBytes held.reverse
    if most < widen countsBytes width c ∧ !held.isEmpty then
      let behindBlank := held.takeWhile fun c => !isFieldBlank c
      if breaksAtBlanks ∧ behindBlank.length < held.length then
        (held.drop behindBlank.length).reverse ++ ['\n'] ++
          foldLine countsBytes breaksAtBlanks most (c :: behindBlank) line
      else held.reverse ++ ['\n'] ++ foldLine countsBytes breaksAtBlanks most [c] line
    else foldLine countsBytes breaksAtBlanks most (c :: held) line

/-- Prints the lines of files, broken where they get too wide. -/
def fold : Utility := fun _ words =>
  withOptions
    { flags := "bs", valued := ['w']
      names := [⟨"bytes", 'b', false⟩, ⟨"spaces", 's', false⟩, ⟨"width", 'w', true⟩] }
    words fun given => do
      let word := (given.value? 'w').getD ['8', '0']
      match Text.toNat? word with
      | none => abort ("invalid number of columns: " ++ quoted word)
      | some 0 =>
        abort ("invalid number of columns: " ++ quoted word ++ ": Numerical result out of range")
      | some width =>
        eachInput [] (fun _ content =>
          put ((splitLines content).flatMap fun line =>
            let isEnded := Text.endsWith line "\n"
            foldLine (given.has 'b') (given.has 's') width []
              (if isEnded then line.dropLast else line)
              ++ if isEnded then ['\n'] else [])) 0 (inputs given.operands)

end Utility

end Shell

end SampleHarvest
