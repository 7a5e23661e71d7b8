import SampleHarvest.Shell.Utility.Simple

/-!
# Sorting lines

Lines are compared by keys, which are parts of them, and as a whole where all keys are equal. Each
key has its own way of comparing; a key without one has that of the whole lines.
-/

namespace SampleHarvest

namespace Shell

namespace Utility

/-- A place in a line: a field, and a character in it or its end. -/
structure KeyPlace where
  field : Nat
  /-- The character, of which the first one has the number one; zero stands for the last one. -/
  character : Nat
  deriving DecidableEq, Repr

/-- A part of lines with a way of comparing. -/
structure SortKey where
  start : KeyPlace
  stop? : Option KeyPlace := none
  letters : Text := []
  skipsBlanks : Bool := false
  skipsBlanksAtEnd : Bool := false

def isFieldBlank (c : Char) : Bool := c == ' ' || c == '\t'

/-- The start of a field in a line, as what is left of the line from there on. -/
def fieldStart (separator? : Option Char) : (field : Nat) → Text → Text
  | 0, line => line
  | field + 1, line =>
    match separator? with
    | some separator =>
      match Text.splitFirst? separator line with
      | some (_, rest) => fieldStart separator? field rest
      | none => []
    | none =>
      let behind := line.dropWhile isFieldBlank
      fieldStart separator? field (behind.dropWhile fun c => !isFieldBlank c)

/-- What is left of a line behind a field. -/
def fieldEnd (separator? : Option Char) (field : Nat) (line : Text) : Text :=
  let rest := fieldStart separator? field line
  match separator? with
  | some separator => rest.dropWhile (· ≠ separator)
  | none => (rest.dropWhile isFieldBlank).dropWhile fun c => !isFieldBlank c

def SortKey.part (key : SortKey) (separator? : Option Char) (line : Text) : Text :=
  let start := fieldStart separator? (key.start.field - 1) line
  let start := if key.skipsBlanks then start.dropWhile isFieldBlank else start
  let start := start.drop (key.start.character - 1)
  match key.stop? with
  | none => start
  | some stop =>
    let rest :=
      if stop.character = 0 then fieldEnd separator? (stop.field - 1) line
      else
        let rest := fieldStart separator? (stop.field - 1) line
        let rest := if key.skipsBlanksAtEnd then rest.dropWhile isFieldBlank else rest
        rest.drop stop.character
    start.take (start.length - rest.length)

/-- The number at the front of a text. -/
def leadingDecimal (t : Text) : Decimal :=
  let t := t.dropWhile isFieldBlank
  let (isNegative, t) : Bool × Text :=
    match t with
    | '-' :: t => (true, t)
    | t => (false, t)
  let whole := t.takeWhile Char.isDigit
  let fraction : Text :=
    match t.drop whole.length with
    | '.' :: rest => rest.takeWhile Char.isDigit
    | _ => []
  let n : Int := Text.digitsValue 0 (whole ++ fraction)
  ⟨if isNegative then -n else n, fraction.length⟩

def Decimal.compare (a b : Decimal) : Ordering :=
  let decimals := max a.decimals b.decimals
  Ord.compare (a.scaled decimals) (b.scaled decimals)

def compareTexts (a b : Text) : Ordering :=
  if a = b then .eq else if Text.le a b then .lt else .gt

/-- The rank of the unit behind a number. -/
def unitRank (t : Text) : Int :=
  let t := t.dropWhile isFieldBlank
  let isNegative := t.head? == some '-'
  let rest := t.dropWhile fun c => c.isDigit || c == '-' || c == '.'
  let rank : Int :=
    match rest.head?.map Char.toUpper with
    | some 'K' => 1
    | some 'M' => 2
    | some 'G' => 3
    | some 'T' => 4
    | some 'P' => 5
    | some 'E' => 6
    | _ => 0
  if (leadingDecimal t).units = 0 then 0 else if isNegative then -rank else rank

def monthNames : List Text :=
  ["jan", "feb", "mar", "apr", "may", "jun", "jul", "aug", "sep", "oct", "nov", "dec"]

/-- The number of the month that a text begins with, and zero if there is none. -/
def monthOf (t : Text) : Nat :=
  let name := Text.lower ((t.dropWhile isFieldBlank).take 3)
  match monthNames.findIdx? (· == name) with
  | some n => n + 1
  | none => 0

/-- The order of characters in versions: a tilde, the end, letters, and then others. -/
def versionRank (c : Char) : Int :=
  if c = '~' then -2
  else if c.isDigit then 0
  else if c.isAlpha then c.toNat
  else c.toNat + 256

/-- How two versions compare: runs of digits by their numbers, others character by character. -/
def compareVersions : (most : Nat) → (a b : Text) → Ordering
  | 0, _, _ => .eq
  | _, [], [] => .eq
  | most + 1, a, b =>
    let lead (t : Text) : Text := t.takeWhile fun c => !c.isDigit
    let rank (t : Text) (i : Nat) : Int :=
      match t[i]? with
      | some c => versionRank c
      | none => -1
    let front := max (lead a).length (lead b).length
    let differs := (List.range front).find? fun i =>
      rank (lead a) i != rank (lead b) i
    match differs with
    | some i => Ord.compare (rank (lead a) i) (rank (lead b) i)
    | none =>
      let restA := a.drop (lead a).length
      let restB := b.drop (lead b).length
      let digitsA := restA.takeWhile Char.isDigit
      let digitsB := restB.takeWhile Char.isDigit
      match Ord.compare (Text.digitsValue 0 digitsA) (Text.digitsValue 0 digitsB) with
      | .eq => compareVersions most (restA.drop digitsA.length) (restB.drop digitsB.length)
      | other => other

/-- How two parts of lines compare in the way that letters say. -/
def compareParts (letters : Text) (a b : Text) : Ordering :=
  let has (letter : Char) : Bool := letters.any (· == letter)
  let found :=
    if has 'n' then (leadingDecimal a).compare (leadingDecimal b)
    else if has 'h' then
      match Ord.compare (unitRank a) (unitRank b) with
      | .eq => (leadingDecimal a).compare (leadingDecimal b)
      | other => other
    else if has 'g' then
      let value (t : Text) : Option Float :=
        (leadingFloat? (t.dropWhile Text.isRawBlank)).map Prod.fst
      match value a, value b with
      | some a, some b => if a < b then .lt else if b < a then .gt else .eq
      | none, some _ => .lt
      | some _, none => .gt
      | none, none => .eq
    else if has 'M' then Ord.compare (monthOf a) (monthOf b)
    else if has 'V' then compareVersions (a.length + b.length + 1) a b
    else
      let kept (t : Text) : Text :=
        let t := if has 'd' then t.filter fun c => c.isAlphanum || isFieldBlank c else t
        let t := if has 'i' then t.filter fun c => ' ' ≤ c && c ≤ '~' else t
        if has 'f' then capitals t else t
      compareTexts (kept a) (kept b)
  if has 'r' then found.swap else found

def compareByKeys (separator? : Option Char) (a b : Text) : List SortKey → Ordering
  | [] => .eq
  | key :: keys =>
    match compareParts key.letters (key.part separator? a) (key.part separator? b) with
    | .eq => compareByKeys separator? a b keys
    | other => other

/-- The number at the front of a text and what follows it. -/
def takeNumber (t : Text) : Option Nat × Text :=
  let digits := t.takeWhile Char.isDigit
  (Text.toNat? digits, t.drop digits.length)

def keyPlace (isStart : Bool) (word t : Text) : Except Text (KeyPlace × Text) :=
  let invalid : Text :=
    "invalid number " ++ (if isStart then "at field start" else "after ','") ++
      ": invalid count at start of " ++ quoted t
  match takeNumber t with
  | (none, _) => .error invalid
  | (some 0, _) => .error ("field number is zero: invalid field specification " ++ quoted word)
  | (some field, '.' :: rest) =>
    match takeNumber rest with
    | (none, _) =>
      .error ("invalid number after '.': invalid count at start of " ++ quoted rest)
    | (some 0, behind) =>
      if isStart then
        .error ("character offset is zero: invalid field specification " ++ quoted word)
      else .ok (⟨field, 0⟩, behind)
    | (some character, behind) => .ok (⟨field, character⟩, behind)
  | (some field, rest) => .ok (⟨field, if isStart then 1 else 0⟩, rest)

/-- The letters of the ways of comparing. -/
def sortLetters : Text := "bdfghiMnRrV"

def sortKey (word : Text) : Except Text SortKey := do
  let (start, rest) ← keyPlace true word word
  let letters := rest.takeWhile fun c => sortLetters.any (· == c)
  let skipsBlanks := letters.any (· == 'b')
  match rest.drop letters.length with
  | [] => return { start, letters := letters.filter (· ≠ 'b'), skipsBlanks }
  | ',' :: rest =>
    let (stop, rest) ← keyPlace false word rest
    let more := rest.takeWhile fun c => sortLetters.any (· == c)
    unless (rest.drop more.length).isEmpty do
      throw ("stray character in field spec: invalid field specification " ++ quoted word)
    return { start, stop? := some stop, skipsBlanks
             letters := (letters ++ more).filter (· ≠ 'b')
             skipsBlanksAtEnd := more.any (· == 'b') }
  | _ => throw ("stray character in field spec: invalid field specification " ++ quoted word)

/-- The keys that words mean. -/
def sortKeys : List Text → Except Text (List SortKey)
  | [] => .ok []
  | word :: words => do
    let key ← sortKey word
    return key :: (← sortKeys words)

structure Sorting where
  keys : List SortKey
  separator? : Option Char
  /-- Whether lines with equal keys are kept in their order, or only one of them is kept. -/
  isStable : Bool
  isReversed : Bool

def Sorting.compare (sorting : Sorting) (a b : Text) : Ordering :=
  match compareByKeys sorting.separator? a b sorting.keys with
  | .eq =>
    if sorting.isStable then .eq
    else if sorting.isReversed then (compareTexts a b).swap
    else compareTexts a b
  | other => other

/-- The lines without those that compare as equal to the one before them. -/
def dropEqual (same : Text → Text → Bool) : List Text → List Text
  | [] => []
  | [line] => [line]
  | first :: second :: lines =>
    if same first second then
      match dropEqual same (second :: lines) with
      | [] => [first]
      | _ :: others => first :: others
    else first :: dropEqual same (second :: lines)

def disorder? (inOrder : Text → Text → Bool) : (number : Nat) → List Text → Option (Nat × Text)
  | number, first :: second :: lines =>
    if inOrder first second then disorder? inOrder (number + 1) (second :: lines)
    else some (number + 1, second)
  | _, _ => none

/-- The way of sorting that options ask for. -/
def sortingOf (given : Given) : Except Text Sorting := do
  let letters := given.options.filterMap fun entry =>
    if sortLetters.any (· == entry.1) then some entry.1 else none
  let general := letters.filter (· ≠ 'b')
  let keys ← sortKeys (given.values 'k')
  let isBlank := letters.any (· == 'b')
  let whole : SortKey := { start := ⟨1, 1⟩, letters := general, skipsBlanks := isBlank }
  let keys := keys.map fun key =>
    if key.letters.isEmpty ∧ !key.skipsBlanks ∧ !key.skipsBlanksAtEnd then
      { key with letters := general, skipsBlanks := isBlank, skipsBlanksAtEnd := isBlank }
    else key
  let separator? ←
    match given.value? 't' with
    | none => pure none
    | some [c] => pure (some c)
    | some [] => throw "empty tab".toList
    | some ['\\', '0'] => pure (some '\x00')
    | some t => throw ("multi-character tab " ++ quoted t)
  return { keys := if keys.isEmpty then [whole] else keys
           separator?
           isStable := given.has 's' || given.has 'u'
           isReversed := letters.any (· == 'r') }

def sortNames : List LongOption :=
  [⟨"ignore-leading-blanks", 'b', false⟩, ⟨"dictionary-order", 'd', false⟩,
    ⟨"ignore-case", 'f', false⟩, ⟨"general-numeric-sort", 'g', false⟩,
    ⟨"human-numeric-sort", 'h', false⟩, ⟨"ignore-nonprinting", 'i', false⟩,
    ⟨"month-sort", 'M', false⟩, ⟨"numeric-sort", 'n', false⟩, ⟨"random-sort", 'R', false⟩,
    ⟨"reverse", 'r', false⟩, ⟨"version-sort", 'V', false⟩, ⟨"check", 'c', false⟩,
    ⟨"key", 'k', true⟩, ⟨"merge", 'm', false⟩, ⟨"output", 'o', true⟩, ⟨"stable", 's', false⟩,
    ⟨"field-separator", 't', true⟩, ⟨"unique", 'u', false⟩, ⟨"zero-terminated", 'z', false⟩]

/-- The elements that end with a character, without it. -/
def cutAt (stop : Char) (t : Text) : List Text :=
  let parts := Text.splitOn stop t
  if parts.getLast? = some [] then parts.dropLast else parts

/-- Prints the lines of files in order, or says which one is not in order. -/
def sort : Utility := fun _ words =>
  withOptions
    { flags := "bdfghiMnRrVcCmsuz", valued := "koStT", names := sortNames } words (fun given => do
      match sortingOf given with
      | .error message => abort message 2
      | .ok sorting =>
        let stop : Char := if given.has 'z' then '\x00' else '\n'
        let rec readEach : List Text → Act (Except Nat (List Text))
          | [] => return .ok []
          | operand :: operands => do
            match ← readOperand operand with
            | .ok content =>
              match ← readEach operands with
              | .ok others => return .ok (cutAt stop content ++ others)
              | .error status => return .error status
            | .error .isFolder =>
              say ("read failed: " ++ operand ++ ": " ++ DiskFault.isFolder.reason)
              return .error 2
            | .error fault =>
              let lead : Text :=
                if given.has 'c' ∨ given.has 'C' then "open failed: " else "cannot read: "
              say (lead ++ operand ++ ": " ++ fault.reason)
              return .error 2
        match ← readEach (inputs given.operands) with
        | .error status => return status
        | .ok lines =>
          if given.has 'c' ∨ given.has 'C' then
            let inOrder (a b : Text) : Bool :=
              let found := sorting.compare a b
              found == .lt || (found == .eq && !given.has 'u')
            match disorder? inOrder 1 lines with
            | none => return 0
            | some (number, line) =>
              let name := (inputs given.operands).headD []
              unless given.has 'C' do
                say (name ++ ":" ++ Text.ofNat number ++ ": disorder: " ++ line)
              return 1
          let sorted := lines.mergeSort fun a b => sorting.compare a b != .gt
          let kept :=
            if given.has 'u' then dropEqual (fun a b => sorting.compare a b == .eq) sorted
            else sorted
          let output := kept.flatMap fun line => line ++ [stop]
          match given.value? 'o' with
          | none =>
            put output
            return 0
          | some path =>
            match ← openPath .writing path with
            | .ok number =>
              writeStream number output
              return 0
            | .error fault => abort ("open failed: " ++ path ++ ": " ++ fault.reason) 2) 2

def comparedPart (given : Given) (line : Text) : Text :=
  let number (letter : Char) : Nat := ((given.value? letter).bind Text.toNat?).getD 0
  let rec skip : Nat → Text → Text
    | 0, t => t
    | n + 1, t => skip n ((t.dropWhile isFieldBlank).dropWhile fun c => !isFieldBlank c)
  let part := (skip (number 'f') line).drop (number 's')
  let part := if (given.value? 'w').isSome then part.take (number 'w') else part
  if given.has 'i' then Text.lower part else part

/-- The runs of lines that are the same, with how many there are in each. -/
def runsOf (same : Text → Text → Bool) : List Text → List (Text × Nat)
  | [] => []
  | line :: lines =>
    match runsOf same lines with
    | (other, n) :: runs =>
      if same line other then (line, n + 1) :: runs else (line, 1) :: (other, n) :: runs
    | [] => [(line, 1)]

/-- Prints the lines of a file without those that are the same as the one before. -/
def uniq : Utility := fun _ words =>
  withOptions
    { flags := "cdDiuz", valued := "fsw"
      names := [⟨"count", 'c', false⟩, ⟨"repeated", 'd', false⟩, ⟨"unique", 'u', false⟩,
        ⟨"ignore-case", 'i', false⟩, ⟨"skip-fields", 'f', true⟩, ⟨"skip-chars", 's', true⟩,
        ⟨"check-chars", 'w', true⟩] }
    words fun given => do
      match given.operands with
      | _ :: _ :: extra :: _ => misuse ("extra operand " ++ quoted extra)
      | operands =>
        let input := operands.headD ['-']
        match ← readOperand input with
        | .error .isFolder =>
          abort ("error reading " ++ quoted input ++ ": " ++ DiskFault.isFolder.reason)
        | .error fault => abort (input ++ ": " ++ fault.reason)
        | .ok content =>
          let same (a b : Text) : Bool := comparedPart given a == comparedPart given b
          let kept := (runsOf same (linesOf content)).filter fun (_, n) =>
            (!given.has 'd' || 1 < n) && (!given.has 'u' || n == 1)
          let shown := kept.flatMap fun (line, n) =>
            let digits := Text.ofNat n
            (if given.has 'c' then List.replicate (7 - digits.length) ' ' ++ digits ++ [' ']
              else []) ++
              line ++ ['\n']
          match operands with
          | [_, output] =>
            match ← openPath .writing output with
            | .ok number =>
              writeStream number shown
              return 0
            | .error fault => abort (output ++ ": " ++ fault.reason)
          | _ =>
            put shown
            return 0

/-- The lines of two files side by side: with the number of the column of each. -/
def mergeLines : (most : Nat) → List Text → List Text → List (Nat × Text)
  | 0, _, _ => []
  | _, [], others => others.map fun line => (2, line)
  | _, lines, [] => lines.map fun line => (1, line)
  | most + 1, a :: as, b :: bs =>
    if a = b then (3, a) :: mergeLines most as bs
    else if Text.le a b then (1, a) :: mergeLines most as (b :: bs)
    else (2, b) :: mergeLines most (a :: as) bs

/-- Compares two files line by line. -/
def comm : Utility := fun _ words =>
  withOptions { flags := "123z" } words fun given => do
    match given.operands with
    | [] => misuse "missing operand"
    | [first] => misuse ("missing operand after " ++ quoted first)
    | [first, second] =>
      match ← readOperand first, ← readOperand second with
      | .error fault, _ => abort (first ++ ": " ++ fault.reason)
      | _, .error fault => abort (second ++ ": " ++ fault.reason)
      | .ok left, .ok right =>
        let left := linesOf left
        let right := linesOf right
        let merged := mergeLines (left.length + right.length + 1) left right
        let lead (column : Nat) : Text :=
          List.replicate ((List.range column).filter fun n =>
            1 ≤ n && !given.has (Char.ofNat (48 + n))).length '\t'
        for (column, line) in merged do
          unless given.has (Char.ofNat (48 + column)) do putLine (lead column ++ line)
        let hasUnpaired := merged.any fun entry => entry.1 != 3
        let isSorted (lines : List Text) : Bool := (disorder? Text.le 1 lines).isNone
        let mut status := 0
        if hasUnpaired then
          unless isSorted left do
            say "file 1 is not in sorted order"
            status := 1
          unless isSorted right do
            say "file 2 is not in sorted order"
            status := 1
        if status = 1 then say "input is not in sorted order"
        return status
    | _ :: _ :: extra :: _ => misuse ("extra operand " ++ quoted extra)

end Utility

end Shell

end SampleHarvest
