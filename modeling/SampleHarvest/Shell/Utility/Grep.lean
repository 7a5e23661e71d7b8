import SampleHarvest.Shell.Pattern
import SampleHarvest.Shell.Regex.Parse
import SampleHarvest.Shell.Utility.Files

/-!
# Searching lines

The lines of files in which a pattern fits a part are printed, or their number, or the names of the
files. There can be several patterns, of which one has to fit. Lines around the printed ones are
printed too if that is wanted, with a mark between groups of lines that do not touch.
-/

namespace SampleHarvest

namespace Shell

namespace Utility

/-- An expression that fits exactly a text. -/
def literalRegex (isFolded : Bool) : Text → Regex
  | [] => .empty
  | c :: t =>
    let set := CharacterSet.single c
    .sequence (.one (if isFolded then set.folded else set)) (literalRegex isFolded t)

/-- What is said about repetitions with nothing before them in extended patterns; `isStart` tells
whether there is nothing before the next character, and `skip` characters are passed over. -/
def startWarnings : (isStart : Bool) → (skip : Nat) → Text → List Text
  | _, _, [] => []
  | isStart, skip + 1, _ :: t => startWarnings isStart skip t
  | _, 0, '\\' :: c :: t => startWarnings (c == '(' || c == '|') 0 t
  | isStart, 0, c :: t =>
    if "(|^$".toList.any (· == c) then startWarnings true 0 t
    else if isStart && (c == '*' || c == '+' || c == '?') then
      (c :: " at start of expression".toList) :: startWarnings true 0 t
    else
      match Regex.bounds? { isExtended := true } t with
      | some (_, _, rest) =>
        if isStart && c == '\x7b' then
          "\x7b...\x7d at start of expression".toList ::
            startWarnings true (t.length - rest.length) t
        else startWarnings false 0 t
      | none => startWarnings false 0 t

/-- The expression that patterns mean together, as options want it, with what is said about them. -/
def searchRegex (given : Given) (patterns : List Text) : Except Text (Regex × List Text) := do
  let isFolded := given.has 'i' || given.has 'y'
  let style := (given.last? "EFGP").getD 'G'
  let single (pattern : Text) : Except Text Regex :=
    if style = 'F' then .ok (literalRegex isFolded pattern)
    else Regex.parse { isExtended := style != 'G', isFolded } pattern
  let rec all : List Text → Except Text Regex
    | [] => .ok .empty
    | [pattern] => single pattern
    | pattern :: patterns => do
      let first ← single pattern
      return .either first (← all patterns)
  let regex ← all patterns
  let warnings := if style = 'E' then patterns.flatMap (startWarnings true 0) else []
  let around (first second : Anchor) : Regex :=
    .sequence (.place first) (.sequence regex (.place second))
  let whole :=
    if given.has 'x' then around .textStart .textEnd
    else if given.has 'w' then around .behindNoWord .beforeNoWord
    else regex
  return (whole, warnings)

/-- A line of a file with its place. -/
structure Found where
  number : Nat
  offset : Nat
  line : Text
  isSelected : Bool

structure Searching where
  regex : Regex
  given : Given
  /-- How many lines before a line are printed too. -/
  before : Nat
  /-- How many lines behind a line are printed too. -/
  behind : Nat
  most? : Option Nat
  isNamed : Bool

/-- The lines of a text with their places, up to the most that are searched for and those behind. -/
def Searching.lines (searching : Searching) :
    (number offset : Nat) → (left? : Option Nat) → List Text → List Found
  | _, _, _, [] => []
  | number, offset, left?, line :: lines =>
    let isOver := left? == some 0
    let isSelected := !isOver && (searching.regex.fitsIn line != searching.given.has 'v')
    let next? := if isSelected then left?.map (· - 1) else left?
    ⟨number, offset, line, isSelected⟩ ::
      searching.lines (number + 1) (offset + line.length + 1) next? lines

/-- The lines that are printed: those that are searched for and those near them. Lines that do not
touch the ones before are marked. `near` lines are still to be printed, and `held` are the last ones
that were not, from the last to the first. -/
def Searching.shown (searching : Searching) :
    (near : Nat) → (held : List Found) → (hasGap isFirst : Bool) → List Found → List (Bool × Found)
  | _, _, _, _, [] => []
  | near, held, hasGap, isFirst, found :: rest =>
    if found.isSelected then
      let lead := (held.take searching.before).reverse
      let isApart := !isFirst && (hasGap || searching.before < held.length)
      let all := lead ++ [found]
      (all.zipIdx.map fun (found, i) => (isApart && i == 0, found)) ++
        searching.shown searching.behind [] false false rest
    else if 0 < near then
      (false, found) :: searching.shown (near - 1) [] false isFirst rest
    else
      let kept := (found :: held).take (searching.before + 1)
      searching.shown 0 kept (hasGap || searching.before < (found :: held).length) isFirst rest

/-- What stands before a line. -/
def Searching.lead (searching : Searching) (name : Text) (number offset : Nat) (mark : Char) :
    Text :=
  (if searching.isNamed then name ++ [mark] else []) ++
    (if searching.given.has 'n' then Text.ofNat number ++ [mark] else []) ++
    if searching.given.has 'b' then Text.ofNat offset ++ [mark] else []

/-- The output of a line that is printed. -/
def Searching.output (searching : Searching) (name : Text) (found : Found) : Text :=
  let stop : Char := if searching.given.has 'z' then '\x00' else '\n'
  let mark : Char := if found.isSelected then ':' else '-'
  if !searching.given.has 'o' then
    searching.lead name found.number found.offset mark ++ found.line ++ [stop]
  else if !found.isSelected ∨ searching.given.has 'v' then []
  else
    let rec parts (place : Nat) : List (Text × Regex.Match) → Text
      | [] => []
      | (front, found') :: others =>
        let start := place + front.length
        let next := start + found'.fitted.length
        let shown :=
          if found'.fitted.isEmpty then []
          else
            searching.lead name found.number (found.offset + start) ':' ++ found'.fitted ++ [stop]
        shown ++ parts next others
    parts 0 (searching.regex.findAll (found.line.length + 2) none false found.line).1

/-- Searches one file, and says whether something was found and whether groups of lines have been
printed before the next file. -/
def Searching.run (searching : Searching) (name : Text) (content : Text) (isFirst : Bool) :
    Act (Bool × Bool) := do
  let given := searching.given
  let stop : Char := if given.has 'z' then '\x00' else '\n'
  let isBinary := !given.has 'a' && !given.has 'z' && content.any (· == '\x00')
  if isBinary ∧ given.has 'I' then return (false, isFirst)
  let parts := Text.splitOn stop content
  let lines := if parts.getLast? = some [] then parts.dropLast else parts
  let found := searching.lines 1 0 searching.most? lines
  let count := (found.filter Found.isSelected).length
  let isFound := count != 0
  let named (mark : Text) : Text := if searching.isNamed then name ++ mark else []
  if given.has 'q' then return (isFound, isFirst)
  else if given.has 'L' ∨ given.has 'l' then
    let wanted := given.last? "lL" == some 'l'
    if isFound = wanted then put (name ++ [if given.has 'Z' then '\x00' else '\n'])
    return (if wanted then isFound else !isFound, isFirst)
  else if given.has 'c' then
    putLine (named [':'] ++ Text.ofNat count)
    return (isFound, isFirst)
  else if isBinary then
    if isFound then putLine ((← getProcess).name ++ ": " ++ name ++ ": binary file matches")
    return (isFound, isFirst)
  else
    let shown := searching.shown 0 [] true isFirst found
    let hasContext := given.options.any fun entry =>
      entry.1.isDigit || "ABC".toList.any (· == entry.1)
    let hasGroups := hasContext && !given.has '-'
    for (isApart, found) in shown do
      if isApart ∧ hasGroups then putLine ['-', '-']
      put (searching.output name found)
    return (isFound, isFirst && shown.isEmpty)

def filesBelow (given : Given) (follows : Bool) (path : Text) : Node → List Text
  | .folder entries => inEntries path entries
  | .link _ => if follows then [path] else []
  | _ =>
    let name := lastName path
    let fitsOne (letter : Char) : Bool := (given.values letter).any fun pattern =>
      fits (Field.active pattern).wildcards name
    if (given.has '+' && !fitsOne '+') || fitsOne '/' then [] else [path]
where
  /-- The files below the entries of a folder. -/
  inEntries (path : Text) : List (Text × Node) → List Text
    | [] => []
    | (name, node) :: entries =>
      let raw := Text.toRaw name
      let inner :=
        if path.isEmpty then raw
        else (if Text.endsWith path "/" then path else path ++ ['/']) ++ raw
      let isLeftOut := node.isFolder && (given.values '!').any fun pattern =>
        fits (Field.active pattern).wildcards raw
      (if isLeftOut then [] else filesBelow given follows inner node) ++ inEntries path entries

/-- A file that is searched: its name and its path, if it is not the input. -/
abbrev SearchedFile := Text × Option Text

/-- Searches files one after the other; gives whether something was found and whether something went
wrong. -/
def searchFiles (searching : Searching) : (isFirst : Bool) → List SearchedFile → Act (Bool × Bool)
  | _, [] => return (false, false)
  | isFirst, (name, path?) :: files => do
    let read : Except DiskFault Text ←
      match path? with
      | none => do
        let (ahead, isFile) ← peek 0
        if isFile ∧ searching.most?.isSome then
          let selected := (searching.lines 1 0 searching.most? (linesOf ahead)).filter
            Found.isSelected
          let isFull := some selected.length == searching.most?
          let used :=
            match selected.getLast? with
            | some last => if isFull then last.offset + last.line.length + 1 else ahead.length
            | none => ahead.length
          let _ ← readFrom 0 (some used)
          pure (.ok ahead)
        else
          let _ ← readFrom 0
          pure (.ok ahead)
      | some path => readPath path
    match read with
    | .error fault =>
      unless searching.given.has 's' do say (name ++ ": " ++ fault.reason)
      let (isFound, _) ← searchFiles searching isFirst files
      return (isFound, true)
    | .ok content =>
      let (isFound, isFirst) ← searching.run name content isFirst
      if isFound ∧ searching.given.has 'q' then return (true, false)
      let (others, isWrong) ← searchFiles searching isFirst files
      return (isFound || others, isWrong)

def searchNames : List LongOption :=
  [⟨"extended-regexp", 'E', false⟩, ⟨"fixed-strings", 'F', false⟩, ⟨"basic-regexp", 'G', false⟩,
    ⟨"perl-regexp", 'P', false⟩, ⟨"regexp", 'e', true⟩, ⟨"file", 'f', true⟩,
    ⟨"ignore-case", 'i', false⟩, ⟨"invert-match", 'v', false⟩, ⟨"word-regexp", 'w', false⟩,
    ⟨"line-regexp", 'x', false⟩, ⟨"count", 'c', false⟩, ⟨"files-without-match", 'L', false⟩,
    ⟨"files-with-matches", 'l', false⟩, ⟨"max-count", 'm', true⟩, ⟨"only-matching", 'o', false⟩,
    ⟨"quiet", 'q', false⟩, ⟨"silent", 'q', false⟩, ⟨"no-messages", 's', false⟩]

def moreSearchNames : List LongOption :=
  [⟨"byte-offset", 'b', false⟩, ⟨"with-filename", 'H', false⟩, ⟨"no-filename", 'h', false⟩,
    ⟨"line-number", 'n', false⟩, ⟨"null", 'Z', false⟩, ⟨"after-context", 'A', true⟩,
    ⟨"before-context", 'B', true⟩, ⟨"context", 'C', true⟩, ⟨"text", 'a', false⟩,
    ⟨"include", '+', true⟩, ⟨"exclude", '/', true⟩, ⟨"exclude-dir", '!', true⟩,
    ⟨"recursive", 'r', false⟩, ⟨"dereference-recursive", 'R', false⟩,
    ⟨"null-data", 'z', false⟩, ⟨"no-group-separator", '-', false⟩, ⟨"color", 'K', false⟩,
    ⟨"colour", 'K', false⟩]

/-- Searches for lines, in a style if the options name none. -/
def searchIn (style? : Option Char) : Utility := fun _ words => do
  let usage : Act Nat := do
    let name := (← getProcess).name
    complain ("Usage: " ++ name ++ " [OPTION]... PATTERNS [FILE]...")
    complain ("Try '" ++ name ++ " --help' for more information.")
    return 2
  let knowledge : Knowledge :=
    { flags := "EFGPivwxclLqshHnborRazyUTZuI0123456789", valued := "efmABCdD"
      names := searchNames ++ moreSearchNames }
  let isColor (word : Text) : Bool := Text.startsWith word "--colo" && word.any (· == '=')
  match parseOptions knowledge (words.filter fun word => !isColor word) with
  | .error message =>
    say message
    usage
  | .ok given =>
    let given :=
      match style? with
      | some style => { given with options := (style, []) :: given.options }
      | none => given
    let isListed := given.has 'e' || given.has 'f'
    if !isListed ∧ given.operands.isEmpty then usage
    else
      let rec readPatterns : List Text → Act (Except Text (List Text))
        | [] => return .ok []
        | path :: paths => do
          match ← readOperand path with
          | .error fault => return .error (path ++ ": " ++ fault.reason)
          | .ok content =>
            match ← readPatterns paths with
            | .ok others => return .ok (linesOf content ++ others)
            | .error message => return .error message
      let number? (letters : Text) : Option (Except Text Nat) :=
        (given.options.filter fun entry => letters.any (· == entry.1)).getLast?.map fun entry =>
          match Text.toNat? entry.2 with
          | some n => .ok n
          | none => .error entry.2
      let digits : Text := given.options.filterMap fun entry =>
        if entry.1.isDigit then some entry.1 else none
      let around := (Text.toNat? digits).getD 0
      match number? "m", number? "AC", number? "BC", ← readPatterns (given.values 'f') with
      | some (.error _), _, _, _ => abort "invalid max count" 2
      | _, some (.error word), _, _ => abort (word ++ ": invalid context length argument") 2
      | _, _, some (.error word), _ => abort (word ++ ": invalid context length argument") 2
      | _, _, _, .error message => abort message 2
      | most?, behind?, before?, .ok fromFiles =>
        let value (found? : Option (Except Text Nat)) : Option Nat :=
          match found? with
          | some (.ok n) => some n
          | _ => none
        let operands := if isListed then given.operands else given.operands.drop 1
        let written := if isListed then given.values 'e' else given.operands.take 1
        let patterns := written.flatMap (Text.splitOn '\n') ++ fromFiles
        match searchRegex given patterns with
        | .error message => abort message 2
        | .ok (regex, warnings) =>
          for warning in warnings do
            say ("warning: " ++ warning)
          let most? := value most?
          if most? = some 0 then return 1
          let recurses := given.has 'r' || given.has 'R'
          let mut files : List SearchedFile := []
          let mut isWrong := false
          for operand in if operands.isEmpty then [if recurses then [] else ['-']] else operands do
            if operand = "-" then files := files ++ [("(standard input)".toList, none)]
            else
              match ← nodeAt (if operand.isEmpty ∧ recurses then ['.'] else operand) with
              | .ok (.folder entries) =>
                if recurses then
                  let below := filesBelow given (given.has 'R') operand (.folder entries)
                  files := files ++ below.map fun path => (path, some path)
                else
                  let isSkipped := given.value? 'd' == some "skip".toList
                  unless isSkipped do
                    unless given.has 's' do
                      say (operand ++ ": " ++ DiskFault.isFolder.reason)
                    isWrong := true
              | _ => files := files ++ [(operand, some operand)]
          let isManyFolders ←
            match operands with
            | [] => pure recurses
            | [one] =>
              match ← nodeAt one with
              | .ok node => pure (recurses && node.isFolder)
              | .error _ => pure false
            | _ => pure true
          let isNamed :=
            match given.last? "hH" with
            | some letter => letter == 'H'
            | none => isManyFolders
          let searching : Searching :=
            { regex, given, most?, isNamed
              behind := (value behind?).getD around
              before := (value before?).getD around }
          let (isFound, isFailed) ← searchFiles searching true files
          if given.has 'q' ∧ isFound then return 0
          return if isWrong ∨ isFailed then 2 else if isFound then 0 else 1

def grep : Utility := searchIn none

/-- Searches for lines with extended patterns. -/
def egrep : Utility := searchIn (some 'E')

/-- Searches for lines that hold texts. -/
def fgrep : Utility := searchIn (some 'F')

end Utility

end Shell

end SampleHarvest
