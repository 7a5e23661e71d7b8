import SampleHarvest.Shell.Utility.Simple

/-!
# Comparing files

Two files are compared byte by byte, or line by line. In the second way as many lines as possible
are kept, and what is told is how to change the rest.
-/

namespace SampleHarvest

namespace Shell

namespace Utility

/-- Where two texts begin to differ: the number of the byte and of the line, and what is left. -/
def firstDifference : (byte line : Nat) → Text → Text → Nat × Nat × Text × Text
  | byte, line, a :: as, b :: bs =>
    if a = b then firstDifference (byte + 1) (if a = '\n' then line + 1 else line) as bs
    else (byte, line, a :: as, b :: bs)
  | byte, line, as, bs => (byte, line, as, bs)

/-- Three octal digits of a byte, with blanks in front. -/
def octalByte (c : Char) : Text :=
  let digits : Text := Nat.toDigits 8 c.toNat
  List.replicate (3 - digits.length) ' ' ++ digits

def differingBytes (byte : Nat) : Text → Text → List (Nat × Char × Char)
  | a :: as, b :: bs =>
    let rest := differingBytes (byte + 1) as bs
    if a = b then rest else (byte, a, b) :: rest
  | _, _ => []

/-- Compares two files byte by byte. -/
def cmp : Utility := fun _ words =>
  withOptions
    { flags := "bls", valued := "in"
      names := [⟨"silent", 's', false⟩, ⟨"quiet", 's', false⟩, ⟨"verbose", 'l', false⟩,
        ⟨"bytes", 'n', true⟩] }
    words (fun given => do
      match given.operands with
      | [] => misuse "missing operand after 'cmp'" 2
      | _ :: _ :: _ :: _ :: extra :: _ => misuse ("extra operand " ++ quoted extra) 2
      | first :: others =>
        let second := others.headD ['-']
        match ← readOperand first, ← readOperand second with
        | .error fault, _ => abort (first ++ ": " ++ fault.reason) 2
        | _, .error fault => abort (second ++ ": " ++ fault.reason) 2
        | .ok a, .ok b =>
          let most? := (given.value? 'n').bind Text.toNat?
          let a := most?.elim a a.take
          let b := most?.elim b b.take
          if a = b then return 0
          else if given.has 's' then return 1
          else
            let (byte, line, restA, restB) := firstDifference 1 1 a b
            let isList := given.has 'l'
            let shorter? : Option (Text × Text) :=
              if restA.isEmpty ∨ (isList ∧ a.length < b.length) then some (first, a)
              else if restB.isEmpty ∨ (isList ∧ b.length < a.length) then some (second, b)
              else none
            let passed := if isList then min a.length b.length else byte - 1
            if isList then
              let width := (Text.ofNat (min a.length b.length)).length
              for (n, x, y) in differingBytes 1 a b do
                let digits := Text.ofNat n
                putLine (List.replicate (width - digits.length) ' ' ++ digits ++ [' '] ++
                  octalByte x ++ [' '] ++ octalByte y)
            match shorter? with
            | some (name, content) =>
              if content.isEmpty then say ("EOF on " ++ name ++ " which is empty")
              else
                let place := if content.getLast? = some '\n' then line - 1 else line
                let kind : Text := if content.getLast? = some '\n' then ", line " else ", in line "
                say ("EOF on " ++ name ++ " after byte " ++ Text.ofNat passed ++
                  if isList then [] else kind ++ Text.ofNat place)
            | none =>
              unless isList do
                let unit : Text := if given.has 'b' then "byte " else "char "
                let shown : Text :=
                  if given.has 'b' then
                    " is " ++ octalByte (restA.headD ' ') ++ [' ', restA.headD ' ', ' '] ++
                      octalByte (restB.headD ' ') ++ [' ', restB.headD ' ']
                  else []
                putLine (first ++ [' '] ++ second ++ " differ: " ++ unit ++ Text.ofNat byte ++
                  ", line " ++ Text.ofNat line ++ shown)
            return 1) 2

/-- The lengths of the longest rows of lines that both have, for every end of the second one; the
row for the first one's end without its first line is given. -/
def commonRow (same : Text → Text → Bool) (line : Text) :
    List Text → (below : List Nat) → List Nat
  | [], below => below.take 1
  | other :: others, below =>
    let row := commonRow same line others (below.drop 1)
    let diagonal := (below.drop 1).headD 0
    let down := below.headD 0
    let right := row.headD 0
    (if same line other then diagonal + 1 else max down right) :: row

/-- The tables of lengths for every end of the first one, the whole one first. -/
def commonTable (same : Text → Text → Bool) (bs : List Text) : List Text → List (List Nat)
  | [] => [List.replicate (bs.length + 1) 0]
  | a :: as =>
    let table := commonTable same bs as
    commonRow same a bs (table.headD []) :: table

inductive DiffStep where
  | kept (old new : Text)
  | dropped (line : Text)
  | added (line : Text)
  deriving DecidableEq, Repr

/-- The steps from one list of lines to another, by the tables of lengths. -/
def diffSteps (same : Text → Text → Bool) : (most : Nat) → List (List Nat) → List Text → List Text →
    List DiffStep
  | 0, _, _, _ => []
  | _, _, [], bs => bs.map .added
  | _, _, as, [] => as.map .dropped
  | most + 1, table, a :: as, b :: bs =>
    if same a b then .kept a b :: diffSteps same most ((table.drop 1).map (·.drop 1)) as bs
    else
      let here := table.headD []
      let down := (table.drop 1).headD []
      if (here.drop 1).headD 0 ≤ down.headD 0 then
        .dropped a :: diffSteps same most (table.drop 1) as (b :: bs)
      else .added b :: diffSteps same most (table.map (·.drop 1)) (a :: as) bs

/-- A change: lines that are left out and lines that are put in, and how many lines of both files
are before it. -/
structure Hunk where
  oldStart : Nat
  newStart : Nat
  dropped : List Text := []
  added : List Text := []

/-- The changes that steps make. -/
def hunks (oldLine newLine : Nat) (open? : Option Hunk) : List DiffStep → List Hunk
  | [] => open?.toList
  | .kept _ _ :: steps => open?.toList ++ hunks (oldLine + 1) (newLine + 1) none steps
  | .dropped line :: steps =>
    let hunk := open?.getD ⟨oldLine, newLine, [], []⟩
    hunks (oldLine + 1) newLine (some { hunk with dropped := hunk.dropped ++ [line] }) steps
  | .added line :: steps =>
    let hunk := open?.getD ⟨oldLine, newLine, [], []⟩
    hunks oldLine (newLine + 1) (some { hunk with added := hunk.added ++ [line] }) steps

/-- A line behind a sign, with a note if it has no end. -/
def signedLine (sign : Text) (line : Text) : Text :=
  sign ++ if Text.endsWith line "\n" then line else line ++ "\n\\ No newline at end of file\n"

/-- A range of lines behind some, as commands name it. -/
def plainRange (start count : Nat) : Text :=
  if count ≤ 1 then Text.ofNat (start + count)
  else Text.ofNat (start + 1) ++ [','] ++ Text.ofNat (start + count)

/-- A change as a command with its lines. -/
def Hunk.plain (hunk : Hunk) : Text :=
  let letter : Char := if hunk.dropped.isEmpty then 'a' else if hunk.added.isEmpty then 'd' else 'c'
  plainRange hunk.oldStart hunk.dropped.length ++ [letter] ++
    plainRange hunk.newStart hunk.added.length ++ ['\n'] ++
    hunk.dropped.flatMap (signedLine ['<', ' ']) ++
    (if letter = 'c' then ['-', '-', '-', '\n'] else []) ++
    hunk.added.flatMap (signedLine ['>', ' '])

/-- Steps in groups with this many lines that are kept around each change; each group with how many
lines of both files are before it. -/
def unifiedGroups (context : Nat) (steps : List DiffStep) : List (Nat × Nat × List DiffStep) :=
  let isKept (step : DiffStep) : Bool :=
    match step with
    | .kept _ _ => true
    | _ => false
  let marks := steps.zipIdx.map fun (step, i) =>
    let near := (steps.drop (i - context)).take (context + 1 + min i context)
    (step, near.any fun step => !isKept step)
  let rec go (old new : Nat) (open? : Option (Nat × Nat × List DiffStep)) :
      List (DiffStep × Bool) → List (Nat × Nat × List DiffStep)
    | [] => (open?.map fun (a, b, steps) => (a, b, steps.reverse)).toList
    | (step, isShown) :: rest =>
      let nextOld := match step with
        | .added _ => old
        | _ => old + 1
      let nextNew := match step with
        | .dropped _ => new
        | _ => new + 1
      if isShown then
        let (a, b, steps) := open?.getD (old, new, [])
        go nextOld nextNew (some (a, b, step :: steps)) rest
      else
        (open?.map fun (a, b, steps) => (a, b, steps.reverse)).toList ++
          go nextOld nextNew none rest
  go 0 0 none marks

/-- A range of lines behind some, as the heads of groups have it. -/
def unifiedRange (start count : Nat) : Text :=
  if count = 1 then Text.ofNat (start + 1)
  else Text.ofNat (if count = 0 then start else start + 1) ++ [','] ++ Text.ofNat count

def unifiedGroup : Nat × Nat × List DiffStep → Text
  | (old, new, steps) =>
    let oldCount := (steps.filter fun step =>
      match step with
      | .added _ => false
      | _ => true).length
    let newCount := (steps.filter fun step =>
      match step with
      | .dropped _ => false
      | _ => true).length
    "@@ -" ++ unifiedRange old oldCount ++ " +" ++ unifiedRange new newCount ++ " @@\n" ++
      steps.flatMap fun step =>
        match step with
        | .kept line _ => signedLine [' '] line
        | .dropped line => signedLine ['-'] line
        | .added line => signedLine ['+'] line

def comparedLine (given : Given) (line : Text) : Text :=
  let line := if given.has 'i' then Text.lower line else line
  if given.has 'w' then line.filter fun c => !Text.isRawBlank c
  else if given.has 'b' then
    let rec shrink : Text → Text
      | [] => []
      | c :: t =>
        if Text.isRawBlank c then
          match shrink t with
          | ' ' :: rest => ' ' :: rest
          | rest => ' ' :: rest
        else c :: shrink t
    (Text.trimEnd (shrink line))
  else line

/-- Compares two files line by line. -/
def diff : Utility := fun _ words => do
  let trouble (message : Text) : Act Nat := do
    say message
    say "Try 'diff --help' for more information."
    return 2
  let knowledge : Knowledge :=
    { flags := "abBcdeEilnNpqrstTuwyZ", valued := "CILUW"
      names := [⟨"brief", 'q', false⟩, ⟨"report-identical-files", 's', false⟩,
        ⟨"unified", 'u', false⟩, ⟨"ignore-case", 'i', false⟩, ⟨"ignore-all-space", 'w', false⟩,
        ⟨"ignore-space-change", 'b', false⟩, ⟨"label", 'L', true⟩] }
  match parseOptions knowledge words with
  | .error message => trouble message
  | .ok given =>
    match given.operands with
    | [] => trouble "missing operand after 'diff'"
    | [one] => trouble ("missing operand after " ++ quoted one)
    | [first, second] =>
      let isFolder (path : Text) : Act Bool := do
        match ← nodeAt path with
        | .ok node => return node.isFolder
        | .error _ => return false
      let firstIsFolder ← isFolder first
      let secondIsFolder ← isFolder second
      let left :=
        if firstIsFolder ∧ !secondIsFolder then first ++ ['/'] ++ lastName second else first
      let right :=
        if secondIsFolder ∧ !firstIsFolder then second ++ ['/'] ++ lastName first else second
      match ← readOperand left, ← readOperand right with
      | .error fault, other =>
        say (left ++ ": " ++ fault.reason)
        if let .error fault := other then say (right ++ ": " ++ fault.reason)
        return 2
      | _, .error fault => abort (right ++ ": " ++ fault.reason) 2
      | .ok a, .ok b =>
        let same (a b : Text) : Bool := comparedLine given a == comparedLine given b
        let old := splitLines a
        let new := splitLines b
        let isSame := old.length == new.length && (old.zip new).all fun (a, b) => same a b
        if isSame then
          if given.has 's' then putLine ("Files " ++ left ++ " and " ++ right ++ " are identical")
          return 0
        else if given.has 'q' then
          putLine ("Files " ++ left ++ " and " ++ right ++ " differ")
          return 1
        else
          let steps :=
            diffSteps same (old.length + new.length + 1) (commonTable same new old) old new
          if given.has 'u' ∨ given.has 'U' then
            let context := ((given.value? 'U').bind Text.toNat?).getD 3
            let labels := given.values 'L'
            let date : Text := "\t1970-01-01 00:00:00.000000000 +0000"
            putLine ("--- " ++ (labels[0]?).getD (left ++ date))
            putLine ("+++ " ++ (labels[1]?).getD (right ++ date))
            put ((unifiedGroups context steps).flatMap unifiedGroup)
          else put ((hunks 0 0 none steps).flatMap Hunk.plain)
          return 1
    | _ :: _ :: extra :: _ => trouble ("extra operand " ++ quoted extra)

end Utility

end Shell

end SampleHarvest
