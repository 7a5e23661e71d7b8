import SampleHarvest.Shell.Utility.Basic

/-!
# Utilities that show what they read

They print files as they are or with marks, a part of them, their lines in another order or with
numbers, or only how much they hold.
-/

namespace SampleHarvest

namespace Shell

namespace Utility

/-- A byte in a way that can be seen, where tabs and line ends stay. -/
def visibleByte (c : Char) : Text :=
  let low (n : Nat) : Text :=
    if n < 32 then ['^', Char.ofNat (n + 64)] else if n = 127 then ['^', '?'] else [Char.ofNat n]
  if c = '\t' ∨ c = '\n' then [c]
  else if 128 ≤ c.toNat then ['M', '-'] ++ low (c.toNat - 128)
  else low c.toNat

/-- How far numbering the lines of files has come. -/
structure Numbering where
  count : Nat := 0
  isAtStart : Bool := true
  blanks : Nat := 0

def lineNumber (n : Nat) : Text :=
  let digits := Text.ofNat n
  List.replicate (6 - digits.length) ' ' ++ digits ++ ['\t']

/-- A line, as the options want it, with how far the numbering has come then. -/
def markLine (given : Given) (numbering : Numbering) (line : Line) : Numbering × Text :=
  let has (letters : Text) : Bool := letters.any given.has
  let isEmpty := numbering.isAtStart && line == ['\n']
  let blanks := if isEmpty then numbering.blanks + 1 else 0
  if given.has 's' ∧ 1 < blanks then ({ numbering with blanks }, [])
  else
    let isNumbered := numbering.isAtStart &&
      (if given.has 'b' then !isEmpty else given.has 'n')
    let count := if isNumbered then numbering.count + 1 else numbering.count
    let shown := line.flatMap fun c =>
      if c = '\n' then (if has "EAe" then ['$', '\n'] else ['\n'])
      else if c = '\t' then (if has "TAt" then ['^', 'I'] else ['\t'])
      else if has "vAet" then visibleByte c
      else [c]
    let number := if isNumbered then lineNumber count else []
    ({ count, isAtStart := Text.endsWith line "\n", blanks }, number ++ shown)

/-- Lines as the options want them. -/
def markLines (given : Given) : Numbering → List Line → Numbering × Text
  | numbering, [] => (numbering, [])
  | numbering, line :: lines =>
    let (numbering, first) := markLine given numbering line
    let (numbering, others) := markLines given numbering lines
    (numbering, first ++ others)

/-- Prints files one after the other. -/
def cat : Utility := fun _ words => do
  let names : List LongOption :=
    [⟨"show-all", 'A', false⟩, ⟨"number-nonblank", 'b', false⟩, ⟨"show-ends", 'E', false⟩,
      ⟨"number", 'n', false⟩, ⟨"squeeze-blank", 's', false⟩, ⟨"show-tabs", 'T', false⟩,
      ⟨"show-nonprinting", 'v', false⟩]
  let rec all (given : Given) : Numbering → (status : Nat) → List Text → Act Nat
    | _, status, [] => return status
    | numbering, status, operand :: operands => do
      match ← readOperand operand with
      | .ok content =>
        if given.options.isEmpty then
          put content
          all given numbering status operands
        else
          let (numbering, shown) := markLines given numbering (splitLines content)
          put shown
          all given numbering status operands
      | .error fault =>
        say (operand ++ ": " ++ fault.reason)
        all given numbering 1 operands
  withOptions { flags := "AbeEnstTuv", names } words fun given => do
    all { given with options := given.options.filter fun entry => entry.1 != 'u' } {} 0
      (inputs given.operands)

/-- An amount: a number, and whether a sign in front means that it counts in the other way. -/
structure Amount where
  sign? : Option Char
  count : Nat

/-- The amount that a text means, with a letter for a unit behind it or without one. -/
def amount? (t : Text) : Option Amount :=
  let (sign?, t) : Option Char × Text :=
    match t with
    | '-' :: t => (some '-', t)
    | '+' :: t => (some '+', t)
    | t => (none, t)
  let digits := t.takeWhile Char.isDigit
  let units : List (Text × Nat) :=
    [([], 1), (['b'], 512), (['k'], 1024), (['K'], 1024), (['k', 'B'], 1000), (['M'], 1048576)]
  match Text.toNat? digits, units.lookup (t.drop digits.length) with
  | some n, some unit => some ⟨sign?, n * unit⟩
  | _, _ => none

/-- The first or the last lines or bytes of something. -/
structure Portion where
  countsBytes : Bool
  amount : Amount

/-- The lines or bytes of a text. -/
def Portion.elements (portion : Portion) (t : Text) : List Text :=
  if portion.countsBytes then t.map fun c => [c] else splitLines t

def Portion.front (portion : Portion) (t : Text) : Text :=
  let elements := portion.elements t
  let count := portion.amount.count
  let isLess := portion.amount.sign? == some '-'
  (elements.take (if isLess then elements.length - count else count)).flatten

/-- The part of a text that a portion at the end is. -/
def Portion.back (portion : Portion) (t : Text) : Text :=
  let elements := portion.elements t
  let count := portion.amount.count
  let isFrom := portion.amount.sign? == some '+'
  (elements.drop (if isFrom then count - 1 else elements.length - count)).flatten

/-- The amount of lines in the first word of an old way of writing it. -/
def oldAmount (words : List Text) : List Text :=
  match words with
  | ('-' :: c :: rest) :: words =>
    let run := (c :: rest).takeWhile Char.isDigit
    if run.isEmpty then ('-' :: c :: rest) :: words
    else
      let letters := (c :: rest).drop run.length
      let unit : Text := if letters.any (· == 'c') then ['-', 'c'] else ['-', 'n']
      let kept := letters.filter fun c => c != 'c' && c != 'n'
      unit :: run :: ((if kept.isEmpty then [] else ['-' :: kept]) ++ words)
  | words => words

/-- Reads an operand as far as a portion at its front needs it. -/
def readFront (portion : Portion) (operand : Text) : Act (Except DiskFault Text) := do
  let most? := if portion.countsBytes ∧ portion.amount.sign? ≠ some '-' then
    some portion.amount.count else none
  if operand = "-" then
    let (ahead, isFile) ← peek 0
    let front := portion.front ahead
    let _ ← readFrom 0 (if isFile ∨ most?.isSome then some front.length else none)
    return .ok front
  match ← nodeAt operand with
  | .ok (.folder _) => return .error .isFolder
  | _ =>
    match ← openPath .reading operand with
    | .ok number => return .ok (portion.front (← readStream number most?))
    | .error fault => return .error fault

def readBack (portion : Portion) (operand : Text) : Act (Except DiskFault Text) := do
  match ← readOperand operand with
  | .ok content => return .ok (portion.back content)
  | .error fault => return .error fault

/-- Prints portions of files, with their names above them if there are several. -/
def printPortions (isNamed : Bool) (read : Text → Act (Except DiskFault Text)) :
    (isFirst : Bool) → (status : Nat) → List Text → Act Nat
  | _, status, [] => return status
  | isFirst, status, operand :: operands => do
    let shown : Text := if operand = "-" then "standard input" else operand
    let header : Text := if isFirst then "==> " else "\n==> "
    let name : Act Unit := if isNamed then putLine (header ++ shown ++ " <==") else pure ()
    match ← read operand with
    | .ok part =>
      name
      put part
      printPortions isNamed read false status operands
    | .error .isFolder =>
      name
      say ("error reading " ++ quoted shown ++ ": " ++ DiskFault.isFolder.reason)
      printPortions isNamed read false 1 operands
    | .error fault =>
      say ("cannot open " ++ quoted shown ++ " for reading: " ++ fault.reason)
      printPortions isNamed read isFirst 1 operands

/-- Prints portions of files, of which the options say how large they are. -/
def printPortion (words : List Text) (read : Portion → Text → Act (Except DiskFault Text)) :
    Act Nat := do
  let names : List LongOption :=
    [⟨"bytes", 'c', true⟩, ⟨"lines", 'n', true⟩, ⟨"quiet", 'q', false⟩, ⟨"silent", 'q', false⟩,
      ⟨"verbose", 'v', false⟩, ⟨"follow", 'f', false⟩]
  withOptions { flags := "qvfF", valued := "cn", names } (oldAmount words) fun given => do
    let countsBytes := given.last? "cn" == some 'c'
    let word := (given.value? (if countsBytes then 'c' else 'n')).getD ['1', '0']
    match amount? word with
    | none =>
      let unit : Text := if countsBytes then "bytes" else "lines"
      abort ("invalid number of " ++ unit ++ ": " ++ quoted word)
    | some amount =>
      let operands := inputs given.operands
      let isNamed := match given.last? "qv" with
        | some 'q' => false
        | some _ => true
        | none => 1 < operands.length
      let status ← printPortions isNamed (read { countsBytes, amount }) true 0 operands
      if given.has 'f' ∨ given.has 'F' then waitUntil forever
      return status

/-- Prints the first lines or bytes of files. -/
def head : Utility := fun _ words => printPortion words readFront

/-- Prints the last lines or bytes of files. -/
def tail : Utility := fun _ words =>
  let words :=
    match words with
    | ('+' :: c :: rest) :: words =>
      if c.isDigit then ['-', 'n'] :: ('+' :: c :: rest) :: words
      else ('+' :: c :: rest) :: words
    | words => words
  printPortion words readBack

/-- How much a text holds. -/
structure Count where
  lines : Nat := 0
  words : Nat := 0
  bytes : Nat := 0
  width : Nat := 0

/-- How many words a text has. A word has a character that can be printed. -/
def countWords : (isInWord : Bool) → Text → Nat
  | _, [] => 0
  | isInWord, c :: t =>
    if Text.isRawBlank c then countWords false t
    else if isInWord ∨ c < ' ' ∨ '~' < c then countWords isInWord t
    else countWords true t + 1

def lineWidth (line : Text) : Nat :=
  line.foldl (fun n c =>
    if c = '\t' then n + (8 - n % 8) else if c < ' ' ∨ '~' < c then n else n + 1) 0

/-- How much a text holds. -/
def Count.of (t : Text) : Count :=
  { lines := t.count '\n'
    words := countWords false t
    bytes := t.length
    width := (linesOf t).foldl (fun n line => max n (lineWidth line)) 0 }

/-- How much two texts hold together. -/
def Count.add (a b : Count) : Count :=
  ⟨a.lines + b.lines, a.words + b.words, a.bytes + b.bytes, max a.width b.width⟩

/-- The counts that options ask for, each with at least this many characters. -/
def Count.shown (count : Count) (given : Given) (width : Nat) : Text :=
  let asked := given.has 'l' || given.has 'w' || given.has 'c' || given.has 'm' || given.has 'L'
  let numbers :=
    (if !asked ∨ given.has 'l' then [count.lines] else []) ++
      (if !asked ∨ given.has 'w' then [count.words] else []) ++
      (if given.has 'm' then [count.bytes] else []) ++
      (if !asked ∨ given.has 'c' then [count.bytes] else []) ++
      if given.has 'L' then [count.width] else []
  Text.joinWith [' '] (numbers.map fun n =>
    let digits := Text.ofNat n
    List.replicate (width - digits.length) ' ' ++ digits)

def fileSize? (operand : Text) : Act (Option Nat × Bool) := do
  if operand = "-" then
    let machine ← get
    match (← streamOf? 0).bind fun number => machine.streams[number]? with
    | some (.file location _ _) => return (some (contentAt machine.disk location).length, true)
    | _ => return (none, true)
  if operand = "/dev/null" then return (none, true)
  match ← nodeAt operand with
  | .ok (.file (.bytes bytes)) => return (some bytes.length, true)
  | .ok _ => return (none, true)
  | .error _ => return (some 0, false)

/-- Counts the lines, words and bytes of files. -/
def wc : Utility := fun _ words => do
  let names : List LongOption :=
    [⟨"bytes", 'c', false⟩, ⟨"chars", 'm', false⟩, ⟨"lines", 'l', false⟩, ⟨"words", 'w', false⟩,
      ⟨"max-line-length", 'L', false⟩]
  withOptions { flags := "clLmw", names } words fun given => do
    let operands := inputs given.operands
    let kinds := ("clLmw".toList.filter given.has).length
    let sizes ← operands.mapM fileSize?
    let total := sizes.foldl (fun n size => n + size.1.getD 0) 0
    let hasOther := sizes.any fun size => size.1.isNone
    let width :=
      if operands.length = 1 ∧ kinds = 1 then 1
      else max (Text.ofNat total).length (if hasOther then 7 else 1)
    let print (count : Count) (operand : Text) : Act Unit :=
      putLine (count.shown given width ++ if operand.isEmpty then [] else ' ' :: operand)
    let rec all : Count → (status : Nat) → List Text → Act (Count × Nat)
      | sum, status, [] => return (sum, status)
      | sum, status, operand :: operands => do
        match ← readOperand operand with
        | .ok content =>
          let count := Count.of content
          print count (if given.operands.isEmpty then [] else operand)
          all (sum.add count) status operands
        | .error fault =>
          say (operand ++ ": " ++ fault.reason)
          if fault = .isFolder then print {} operand
          all sum 1 operands
    let (sum, status) ← all {} 0 operands
    if 1 < operands.length then print sum "total"
    return status

/-- Prints what it reads, and writes it to files. -/
def tee : Utility := fun _ words =>
  withOptions { flags := "aip", names := [⟨"append", 'a', false⟩] } words fun given => do
    let content ← readFrom 0
    let opening : Opening := if given.has 'a' then .appending else .writing
    let mut status := 0
    for operand in given.operands do
      match ← openPath opening operand with
      | .ok number => writeStream number content
      | .error fault =>
        say (operand ++ ": " ++ fault.reason)
        status := 1
    put content
    return status

/-- Prints the lines of files from the last to the first. -/
def tac : Utility := fun _ words =>
  withOptions {} words fun given => do
    let mut status := 0
    for operand in inputs given.operands do
      match ← readOperand operand with
      | .ok content => put (splitLines content).reverse.flatten
      | .error .isFolder =>
        say (operand ++ ": read error: " ++ DiskFault.isFolder.reason)
        status := 1
      | .error fault =>
        say ("failed to open " ++ quoted operand ++ " for reading: " ++ fault.reason)
        status := 1
    return status

/-- Prints each line of files from its last character to its first. -/
def rev : Utility := fun _ words =>
  withOptions {} words fun given =>
    eachInput "cannot open " (fun _ content =>
      put ((splitLines content).flatMap fun line =>
        if Text.endsWith line "\n" then line.dropLast.reverse ++ ['\n'] else line.reverse))
      0 (inputs given.operands)

/-- Prints the lines of files with numbers. -/
def nl : Utility := fun _ words =>
  withOptions { flags := ['p'], valued := "bdfhilnsvw" } words fun given => do
    let (content, status) ← readAll [] 0 (inputs given.operands)
    let number (letter : Char) (usual : Nat) : Nat :=
      ((given.value? letter).bind Text.toNat?).getD usual
    let width := number 'w' 6
    let separator := (given.value? 's').getD ['\t']
    let style := (given.value? 'b').getD ['t']
    let shown (n : Nat) : Text :=
      let digits := Text.ofNat n
      match given.value? 'n' with
      | some ['l', 'n'] => Text.padRight width digits
      | some ['r', 'z'] => List.replicate (width - digits.length) '0' ++ digits
      | _ => List.replicate (width - digits.length) ' ' ++ digits
    let rec all (n : Nat) : List Text → Text
      | [] => []
      | line :: lines =>
        if style = "a" ∨ (style = "t" ∧ !line.isEmpty) then
          shown n ++ separator ++ line ++ ['\n'] ++ all (n + number 'i' 1) lines
        else
          List.replicate (width + separator.length) ' ' ++ line ++ ['\n'] ++ all n lines
    put (all (number 'v' 1) (linesOf content))
    return status

end Utility

end Shell

end SampleHarvest
