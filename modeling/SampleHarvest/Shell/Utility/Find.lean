import SampleHarvest.Shell.Pattern
import SampleHarvest.Shell.Regex.Parse
import SampleHarvest.Shell.Utility.Files
import SampleHarvest.Shell.Utility.Starting

/-!
# Finding files

Everything below some paths is looked at, and for each file an expression is evaluated. It tests the
file, or does something with it; if it does nothing the path is printed.
-/

namespace SampleHarvest

namespace Shell

namespace Utility

/-- An expression about files. -/
inductive Criterion where
  | constant (value : Bool)
  | name (isFolded : Bool) (pattern : Text)
  | path (isFolded : Bool) (pattern : Text)
  | regex (regex : Regex)
  | kind (letters : Text)
  | empty
  /-- The size, in units of so many bytes, is as large, larger or smaller. -/
  | size (comparison : Ordering) (count unit : Nat)
  | mode (isPartial : Bool) (mode : Nat)
  | print (stop : Char)
  | run (words : List Text)
  | collect (words : List Text)
  | delete
  | prune
  | quit
  | negated (inner : Criterion)
  | both (first second : Criterion)
  | either (first second : Criterion)

namespace Criterion

/-- Whether an expression does something by itself. -/
def acts : Criterion → Bool
  | print _ => true
  | run _ => true
  | collect _ => true
  | delete => true
  | negated inner => inner.acts
  | both first second => first.acts || second.acts
  | either first second => first.acts || second.acts
  | _ => false

/-- Whether an expression removes something. -/
def deletes : Criterion → Bool
  | delete => true
  | negated inner => inner.deletes
  | both first second => first.deletes || second.deletes
  | either first second => first.deletes || second.deletes
  | _ => false

end Criterion

/-- How deep files are looked at. -/
structure Depths where
  least : Nat := 0
  most? : Option Nat := none
  isInnerFirst : Bool := false

/-- A word in quotes of two kinds, as these messages have it. -/
def quotedWord (word : Text) : Text := Char.ofNat 0x60 :: (word ++ ['\x27'])

/-- What is left of the words of an expression, and how deep files are looked at. -/
structure CriterionSource where
  words : List Text
  depths : Depths := {}

/-- Reads something from the words of an expression. -/
abbrev CriterionReader := StateT CriterionSource (Except Text)

/-- Takes the next word, which an expression needs. -/
def nextWord (name : Text) : CriterionReader Text := do
  match (← get).words with
  | [] => throw ("missing argument to " ++ quotedWord name)
  | word :: words =>
    modify ({ · with words })
    return word

def sizeCriterion? (word : Text) : Option Criterion :=
  let (comparison, t) : Ordering × Text :=
    match word with
    | '+' :: t => (.gt, t)
    | '-' :: t => (.lt, t)
    | t => (.eq, t)
  let digits := t.takeWhile Char.isDigit
  let units : List (Text × Nat) :=
    [([], 512), (['b'], 512), (['c'], 1), (['w'], 2), (['k'], 1024), (['M'], 1048576)]
  match Text.toNat? digits, units.lookup (t.drop digits.length) with
  | some n, some unit => some (.size comparison n unit)
  | _, _ => none

/-- The words of a program up to the sign that ends them, and whether that is a plus sign. -/
def programWords : List Text → Option (List Text × Bool × List Text)
  | [] => none
  | word :: words =>
    if word = ";" then some ([], false, words)
    else
      match word, words with
      | ['{', '}'], ['+'] :: rest => some ([], true, rest)
      | _, _ =>
        (programWords words).map fun (found, isCollected, rest) =>
          (word :: found, isCollected, rest)

/-- Reads a single test or action. -/
def readCriterion (name : Text) : CriterionReader Criterion := do
  let number : CriterionReader Nat := do
    let word ← nextWord name
    match Text.toNat? word with
    | some n => return n
    | none => throw ("Expected a positive decimal integer argument to " ++ name ++ ", but got " ++
        quotedWord word)
  let depth (change : Depths → Depths) : CriterionReader Criterion := do
    modify fun source => { source with depths := change source.depths }
    return .constant true
  let program : CriterionReader Criterion := do
    match programWords (← get).words with
    | none => throw ("missing argument to " ++ quotedWord name)
    | some (found, isCollected, words) =>
      modify ({ · with words })
      return if isCollected then .collect found else .run found
  if name = "-name" then return .name false (← nextWord name)
  else if name = "-iname" then return .name true (← nextWord name)
  else if name = "-path" ∨ name = "-wholename" then return .path false (← nextWord name)
  else if name = "-ipath" then return .path true (← nextWord name)
  else if name = "-regex" then
    match Regex.parse { isExtended := false } (← nextWord name) with
    | .ok regex => return .regex regex
    | .error message => throw message
  else if name = "-type" then
    let word ← nextWord name
    match word.find? fun c => !"fdlbcps,".toList.contains c with
    | some c => throw ("Unknown argument to -type: " ++ [c])
    | none => return .kind word
  else if name = "-size" then
    let word ← nextWord name
    match sizeCriterion? word with
    | some found => return found
    | none => throw ("Invalid argument " ++ quotedWord word ++ " to -size")
  else if name = "-perm" then
    let word ← nextWord name
    let digits := word.dropWhile fun c => c == '-' || c == '/'
    return .mode (digits.length < word.length) ((modeOfWord? false 0 0 digits).getD 0)
  else if name = "-newer" then
    let _ ← nextWord name
    return .constant false
  else if name = "-maxdepth" then
    let n ← number
    depth ({ · with most? := some n })
  else if name = "-mindepth" then
    let n ← number
    depth ({ · with least := n })
  else if name = "-depth" then depth ({ · with isInnerFirst := true })
  else if name = "-exec" ∨ name = "-execdir" then program
  else if name = "-empty" then return .empty
  else if name = "-print" then return .print '\n'
  else if name = "-print0" then return .print '\x00'
  else if name = "-delete" then return .delete
  else if name = "-prune" then return .prune
  else if name = "-quit" then return .quit
  else if name = "-true" ∨ name = "-follow" ∨ name = "-xdev" then return .constant true
  else if name = "-false" then return .constant false
  else if name.head? = some '-' then throw ("unknown predicate " ++ quotedWord name)
  else throw ("paths must precede expression: " ++ quotedWord name)

/-- How much of an expression is read. -/
inductive CriterionLevel where
  | either
  | both
  | single
  deriving DecidableEq, Repr

def readCriteria : (steps : Nat) → CriterionLevel → CriterionReader Criterion
  | 0, _ => throw "invalid expression".toList
  | steps + 1, .either => do
    let first ← readCriteria steps .both
    match (← get).words with
    | word :: words =>
      if word = "-o" ∨ word = "-or" then
        modify ({ · with words })
        return .either first (← readCriteria steps .either)
      return first
    | [] => return first
  | steps + 1, .both => do
    let first ← readCriteria steps .single
    match (← get).words with
    | word :: words =>
      if word = "-o" ∨ word = "-or" ∨ word = ")" then return first
      if word = "-a" ∨ word = "-and" then modify ({ · with words })
      return .both first (← readCriteria steps .both)
    | [] => return first
  | steps + 1, .single => do
    match (← get).words with
    | [] => throw "expected an expression".toList
    | word :: words =>
      modify ({ · with words })
      if word = "!" ∨ word = "-not" then return .negated (← readCriteria steps .single)
      else if word = "(" then
        let inner ← readCriteria steps .either
        match (← get).words with
        | [')'] :: words =>
          modify ({ · with words })
          return inner
        | _ =>
          throw ("invalid expression; I was expecting to find a ')' somewhere but did not see one."
            |>.toList)
      else if word = ")" then
        throw ("invalid expression; you have too many ')'".toList)
      else readCriterion word

/-- How far looking has come. -/
structure FindState where
  collected : List (List Text × Text) := []
  isPruned : Bool := false
  isOver : Bool := false
  status : Nat := 0

/-- Something that is done while looking. -/
abbrev Finding := StateT FindState Act

/-- Whether a text fits a pattern, without a difference between capitals and small letters or with
one. -/
def fitsPattern (isFolded : Bool) (pattern t : Text) : Bool :=
  let cased (t : Text) : Text := if isFolded then Text.lower t else t
  fits (Field.active (cased pattern)).wildcards (cased t)

def evaluateCriterion (runner : Runner) (file : Text) (location : Location) (node : Node) :
    Criterion → Finding Bool
  | .constant value => return value
  | .name isFolded pattern => return fitsPattern isFolded pattern (lastName file)
  | .path isFolded pattern => return fitsPattern isFolded pattern file
  | .regex regex =>
    return (Regex.sequence (.place .textStart) (.sequence regex (.place .textEnd))).fitsIn file
  | .kind letters =>
    let letter : Char :=
      match node with
      | .folder _ => 'd'
      | .link _ => 'l'
      | _ => if Check.isDevice location node then 'c' else 'f'
    return letters.any (· == letter)
  | .empty =>
    return match node with
      | .folder entries => entries.isEmpty
      | .link _ => false
      | node => Check.sizeOf node == 0
  | .size comparison count unit =>
    return compare ((Check.sizeOf node + unit - 1) / unit) count == comparison
  | .mode isPartial mode => do
    let own := modeOf (← StateT.lift get) location node
    return if isPartial then Nat.land own mode == mode else own == mode
  | .print stop => do
    StateT.lift (put (file ++ [stop]))
    return true
  | .run words => do
    let words := words.map (Text.replaceAll ['{', '}'] file)
    let act : Act Nat := do
      match ← programPath (words.headD []) with
      | .error fault =>
        say (quoted (words.headD []) ++ ": " ++ fault.reason)
        return 127
      | .ok path =>
        let (status, _) ← inChild runner do
          if let some fault ← runner.program path words then
            say (quoted (words.headD []) ++ ": " ++ fault.reason)
            setStatus 127
        return status
    return (← StateT.lift act) == 0
  | .collect words => do
    modify fun state => { state with collected := state.collected ++ [(words, file)] }
    return true
  | .delete => do
    if file = "." then return true
    let act : Act Bool := do
      match (← get).disk.root.get? location with
      | some (.folder (_ :: _)) =>
        say ("cannot delete " ++ quoted file ++ ": Directory not empty")
        return false
      | _ =>
        eraseNode location
        return true
    let isDone ← StateT.lift act
    unless isDone do modify ({ · with status := 1 })
    return isDone
  | .prune => do
    modify ({ · with isPruned := true })
    return true
  | .quit => do
    modify ({ · with isOver := true })
    return true
  | .negated inner => do return !(← evaluateCriterion runner file location node inner)
  | .both first second => do
    if ← evaluateCriterion runner file location node first then
      if (← get).isOver then return true
      evaluateCriterion runner file location node second
    else return false
  | .either first second => do
    if ← evaluateCriterion runner file location node first then return true
    evaluateCriterion runner file location node second

mutual

def lookAt (look : Text → Location → Node → Finding Unit) (depths : Depths) (file : Text)
    (location : Location) (depth : Nat) : Node → Finding Unit
  | .folder entries => do
    if (← get).isOver then return
    modify ({ · with isPruned := false })
    let isDeep := depths.least ≤ depth
    if isDeep ∧ !depths.isInnerFirst then look file location (.folder entries)
    if (← get).isOver then return
    let goesOn := !(← get).isPruned && depths.most?.all (depth < ·)
    if goesOn then lookBelow look depths file location depth entries
    if (← get).isOver then return
    if isDeep ∧ depths.isInnerFirst then look file location (.folder entries)
  | .file content => do
    if (← get).isOver then return
    if depths.least ≤ depth then look file location (.file content)
  | .link target => do
    if (← get).isOver then return
    if depths.least ≤ depth then look file location (.link target)

/-- Looks at the entries of a folder. -/
def lookBelow (look : Text → Location → Node → Finding Unit) (depths : Depths) (file : Text)
    (location : Location) (depth : Nat) : List (Text × Node) → Finding Unit
  | [] => return
  | (name, node) :: entries => do
    let inner := (if Text.endsWith file "/" then file else file ++ ['/']) ++ Text.toRaw name
    lookAt look depths inner (location ++ [name]) (depth + 1) node
    lookBelow look depths file location depth entries

end

/-- Looks at what is at some paths and below them. -/
def lookAtAll (look : Text → Location → Node → Finding Unit) (depths : Depths) :
    List Text → Finding Unit
  | [] => return
  | path :: paths => do
    match ← StateT.lift (locateRaw false path) with
    | .ok (.present location node) => lookAt look depths path location 0 node
    | other =>
      let fault := match other with
        | .error fault => fault
        | .ok _ => .missing
      StateT.lift (say (quoted path ++ ": " ++ fault.reason))
      modify ({ · with status := 1 })
    lookAtAll look depths paths

def beginsExpression (word : Text) : Bool :=
  (word.head? == some '-' && 1 < word.length) || word == ['('] || word == ['!']

/-- Looks for files. -/
def find : Utility := fun runner words => do
  let words := words.dropWhile fun word => word == "-L".toList || word == "-P".toList
  let paths := words.takeWhile fun word => !beginsExpression word
  let rest := words.drop paths.length
  let read : CriterionReader Criterion := do
    if rest.isEmpty then return .constant true
    let found ← readCriteria (4 * rest.length + 4) .either
    match (← get).words with
    | [] => return found
    | _ => throw ("invalid expression; you have too many ')'".toList)
  match read.run { words := rest } with
  | .error message => abort message
  | .ok (criterion, source) =>
    let depths := source.depths
    let depths := if criterion.deletes then { depths with isInnerFirst := true } else depths
    let whole := if criterion.acts then criterion else .both criterion (.print '\n')
    let look (file : Text) (location : Location) (node : Node) : Finding Unit := do
      let _ ← evaluateCriterion runner file location node whole
    let ((), state) ← (lookAtAll look depths (if paths.isEmpty then [['.']] else paths)).run {}
    let programs := distinctWords (state.collected.map Prod.fst)
    let mut status := state.status
    for program in programs do
      let files := state.collected.filterMap fun (words, file) =>
        if words = program then some file else none
      let (found, _) ← runOne runner (program ++ files)
      unless found = 0 do status := 1
    return status
where
  /-- Lists of words without those that stand further to the front. -/
  distinctWords (all : List (List Text)) : List (List Text) :=
    all.foldl (fun seen words => if seen.contains words then seen else seen ++ [words]) []

end Utility

end Shell

end SampleHarvest
