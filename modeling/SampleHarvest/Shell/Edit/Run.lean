import SampleHarvest.Shell.Edit.Parse
import SampleHarvest.Shell.Utility.Basic

/-!
# Following editing scripts

The instructions of a script are followed for each line from the first one on. Then the line is
printed, unless it is not to be, and what instructions have put behind it. The end of the last line
is missing from the output where it is missing from the input.
-/

namespace SampleHarvest

namespace Shell

namespace Edit

/-- How a script is followed. -/
structure Settings where
  isQuiet : Bool := false
  isSeparate : Bool := false
  /-- Whether files are replaced by what is printed, and what the names of the old ones get behind
  them. -/
  inPlace? : Option Text := none
  lineEnd : Char := '\n'
  width : Nat := 70

/-- Something that is printed behind a line. -/
inductive Queued where
  | text (t : Text)
  | file (path : Text)
  | line (t : Text)

structure Editor where
  settings : Settings
  script : List Instruction
  files : List Text
  file : Text := ['-']
  isReading : Bool := false
  lines : List Text := []
  hasLastEnd : Bool := true
  line : Text := []
  hasEnd : Bool := true
  kept : Text := []
  keepsEnd : Bool := true
  number : Nat := 0
  queue : List Queued := []
  isReplaced : Bool := false
  /-- The ranges that have begun, by the index of the instruction, with the line where they end. -/
  ranges : List (Nat × Option Nat) := []
  regex? : Option Regex := none
  edited : Text := []
  /-- The open files that miss the end of a line; the output has no number. -/
  lacking : List (Option Nat) := []
  streams : List (Text × Nat) := []
  /-- The lines that are left of files that are read line by line. -/
  readers : List (Text × List Text) := []
  status : Nat := 0

/-- Something that is done in editing; it fails with a message and a status. -/
abbrev Editing := ExceptT (Text × Nat) (StateT Editor Act)

/-- What comes after an instruction. -/
inductive Step where
  | onward
  | goTo (index : Nat)
  /-- The next line; this one is printed or not. -/
  | finish (prints : Bool)
  | again
  /-- Nothing; the line is printed or not. -/
  | quit (prints : Bool) (status : Nat)

def fail (message : Text) (status : Nat) : Editing α := throw (message, status)

def onMachine (act : Act α) : Editing α := fun editor => do return (.ok (← act), editor)

/-- Writes to an open file or to the output. -/
def write (stream? : Option Nat) (t : Text) : Editing Unit := do
  match stream? with
  | some stream => onMachine (writeStream stream t)
  | none =>
    if (← get).isReading ∧ (← get).settings.inPlace?.isSome then
      modify fun editor => { editor with edited := editor.edited ++ t }
    else onMachine (put t)

/-- Writes the end of a line where one is missing. -/
def writeLackingEnd (stream? : Option Nat) : Editing Unit := do
  let editor ← get
  if editor.lacking.contains stream? then
    set { editor with lacking := editor.lacking.filter (· != stream?) }
    write stream? [editor.settings.lineEnd]

def printText (t : Text) : Editing Unit := do
  writeLackingEnd none
  write none t

def writeLine (stream? : Option Nat) (line : Text) : Editing Unit := do
  writeLackingEnd stream?
  let editor ← get
  if editor.hasEnd then write stream? (line ++ [editor.settings.lineEnd])
  else
    write stream? line
    modify fun editor => { editor with lacking := stream? :: editor.lacking }

/-- Prints what is to be printed behind the line. -/
def flush : Editing Unit := do
  let queue := (← get).queue.reverse
  modify ({ · with queue := [] })
  for item in queue do
    match item with
    | .text t => printText t
    | .line t => printText (t ++ ['\n'])
    | .file path =>
      match ← onMachine (readPath path) with
      | .ok content => unless content.isEmpty do printText content
      | .error _ => pure ()

def splitText (lineEnd : Char) (t : Text) : List Text × Bool :=
  let parts := Text.splitOn lineEnd t
  if t.isEmpty then ([], true)
  else if parts.getLast? = some [] then (parts.dropLast, true)
  else (parts, false)

/-- Puts what has been printed in the place of the file that has been read. -/
def replaceFile : Editing Unit := do
  let editor ← get
  match editor.settings.inPlace? with
  | none => return
  | some ending =>
    unless ending.isEmpty do
      let name := editor.file ++ ending
      match ← onMachine (readPath editor.file), ← onMachine (openPath .writing name) with
      | .ok old, .ok stream => onMachine (writeStream stream old)
      | _, _ => pure ()
    match ← onMachine (openPath .writing editor.file) with
    | .ok stream => onMachine (writeStream stream editor.edited)
    | .error _ => pure ()
    modify fun editor =>
      { editor with edited := [], lacking := editor.lacking.filter (· != none) }

/-- Goes on with the next file that can be read, and says whether there is one. -/
def openNext : List Text → Editing Bool
  | [] => do
    modify ({ · with files := [], isReading := false })
    return false
  | file :: files => do
    let settings := (← get).settings
    modify ({ · with files })
    let content? : Option Text ←
      if file = "-" ∧ settings.inPlace?.isNone then
        pure (some (← onMachine (Prod.fst <$> peek 0)))
      else
        match ← onMachine (readPath file) with
        | .ok content => pure (some content)
        | .error .isFolder =>
          if settings.inPlace?.isSome then
            fail ("couldn't edit " ++ file ++ ": not a regular file") 4
          else fail ("read error on " ++ file ++ ": Is a directory") 4
        | .error fault =>
          onMachine (Utility.say ("can't read " ++ file ++ ": " ++ fault.reason))
          modify ({ · with status := 2 })
          pure none
    match content? with
    | none => openNext files
    | some content =>
      let (lines, hasLastEnd) := splitText settings.lineEnd content
      modify fun editor =>
        { editor with
          file
          isReading := true
          lines
          hasLastEnd
          number := if settings.isSeparate then 0 else editor.number
          ranges := if settings.isSeparate then [] else editor.ranges }
      return true

/-- Reads the next line, and says whether there is one; over at most this many files. -/
def readNext : (most : Nat) → Editing Bool
  | 0 => return false
  | most + 1 => do
    let editor ← get
    match editor.lines with
    | line :: lines =>
      set { editor with
        line
        lines
        hasEnd := !lines.isEmpty || editor.hasLastEnd
        number := editor.number + 1 }
      return true
    | [] =>
      if editor.isReading then
        if editor.file = "-" ∧ editor.settings.inPlace?.isNone then
          let _ ← onMachine (readFrom 0)
        replaceFile
        modify ({ · with isReading := false })
      if ← openNext editor.files then readNext most
      else return false

/-- Whether one of some files holds something. -/
def anyContent : List Text → Act Bool
  | [] => return false
  | file :: files => do
    let content ←
      if file = "-" then Prod.fst <$> peek 0
      else
        match ← readPath file with
        | .ok content => pure content
        | .error _ => pure []
    if content.isEmpty then anyContent files else return true

/-- Whether the line is the last one. -/
def isLast : Editing Bool := do
  let editor ← get
  if !editor.lines.isEmpty then return false
  if editor.settings.isSeparate then return true
  return !(← onMachine (anyContent editor.files))

/-- The expression that is meant, which is the one that was used last from now on. -/
def useRegex (regex? : Option Regex) : Editing Regex := do
  let editor ← get
  match regex?, editor.regex? with
  | some regex, _ =>
    set { editor with regex? := some regex }
    return regex
  | none, some regex => return regex
  | none, none => fail (partPlace 1 0 ++ "no previous regular expression") 1

/-- Whether the line is meant. -/
def Place.isHere : Place → Editing Bool
  | .number n => do return (← get).number == n
  | .last => isLast
  | .fits regex? => do
    let regex ← useRegex regex?
    return regex.fitsIn (← get).line
  | .step first gap => do
    let n := (← get).number
    return first ≤ n && (n - first) % gap == 0

/-- The number of the line where a range that begins at a line ends, if it has one. -/
def Stop.number? (start : Nat) : Stop → Option Nat
  | .place (.number n) => some n
  | .place _ => none
  | .behind count => some (start + count)
  | .multiple n => some (if n = 0 then start else (start / n + 1) * n)

/-- Whether an instruction with an index is meant for the line. -/
def Scope.isHere (index : Nat) : Scope → Editing Bool
  | .every => return true
  | .lines place => place.isHere
  | .range first stop => do
    let editor ← get
    let n := editor.number
    let close : Editing Unit := modify fun editor =>
      { editor with ranges := editor.ranges.filter fun entry => entry.1 != index }
    let isFromZero : Bool :=
      match first with
      | .number 0 => true
      | _ => false
    let begun? : Option (Option Nat) :=
      match editor.ranges.lookup index with
      | some number? => some number?
      | none => if isFromZero ∧ n = 1 then some none else none
    match begun? with
    | some (some number) =>
      if number ≤ n then close
      return n ≤ number
    | some none =>
      match stop with
      | .place place =>
        if ← place.isHere then close
        else
          modify fun editor =>
            { editor with
              ranges := (index, none) :: editor.ranges.filter fun entry => entry.1 != index }
      | _ => close
      return true
    | none =>
      if ← first.isHere then
        let number? := stop.number? n
        unless number?.any (· ≤ n) do
          modify fun editor => { editor with ranges := (index, number?) :: editor.ranges }
        return true
      return false

/-- Whether the range of an instruction with an index goes on behind the line. -/
def goesOn (index : Nat) : Editing Bool := do return ((← get).ranges.lookup index).isSome

/-- How letters are changed: all that follow, and the next one. -/
structure Casing where
  all : Char := 'E'
  one : Char := 'E'

def casedChar (letter c : Char) : Char :=
  if letter = 'U' ∨ letter = 'u' then c.toUpper
  else if letter = 'L' ∨ letter = 'l' then c.toLower
  else c

def assemble (found : Regex.Match) : Casing → List Piece → Text
  | _, [] => []
  | casing, piece :: pieces =>
    let add (t : Text) : Text :=
      match t with
      | [] => assemble found casing pieces
      | c :: rest =>
        let first := if casing.one = 'E' then casedChar casing.all c else casedChar casing.one c
        first :: rest.map (casedChar casing.all) ++
          assemble found { casing with one := 'E' } pieces
    match piece with
    | .text t => add t
    | .group 0 => add found.fitted
    | .group number => add ((found.groups.lookup number).getD [])
    | .casing letter =>
      if letter = 'u' ∨ letter = 'l' then assemble found { casing with one := letter } pieces
      else assemble found { all := letter, one := casing.one } pieces

def replaced? (replacement : Replacement) (regex : Regex) (line : Text) : Option Text :=
  let (found, rest) := regex.findAll (2 * line.length + 2) none false line
  let isMeant (i : Nat) : Bool :=
    i + 1 == replacement.first || (replacement.isGlobal && replacement.first < i + 1)
  if found.length < replacement.first then none
  else
    some ((found.zipIdx.flatMap fun ((front, found), i) =>
      front ++ if isMeant i then assemble found {} replacement.pieces else found.fitted) ++ rest)

def shownChar (c : Char) : Text :=
  if c = '\\' then ['\\', '\\']
  else if c = '\x07' then ['\\', 'a']
  else if c = '\x08' then ['\\', 'b']
  else if c = '\x0c' then ['\\', 'f']
  else if c = '\n' then ['\\', 'n']
  else if c = '\x0d' then ['\\', 'r']
  else if c = '\t' then ['\\', 't']
  else if c = '\x0b' then ['\\', 'v']
  else if ' ' ≤ c ∧ c ≤ '~' then [c]
  else
    let octal := Nat.toDigits 8 c.toNat
    '\\' :: List.replicate (3 - octal.length) '0' ++ octal

/-- Pieces in lines that have at most this width, of which so much is used. -/
def wrapped (width : Nat) : (used : Nat) → List Text → Text
  | _, [] => ['$', '\n']
  | used, piece :: pieces =>
    if 0 < width ∧ width < used + piece.length + 1 then
      '\\' :: '\n' :: piece ++ wrapped width piece.length pieces
    else piece ++ wrapped width (used + piece.length) pieces

def streamNamed (file : Text) : Editing (Option Nat) := do
  if file = "/dev/stdout" then return none
  return (← get).streams.lookup file

def firstLine (lineEnd : Char) (t : Text) : Text := t.takeWhile (· ≠ lineEnd)

/-- Reads the next line in the place of the line or behind it; without one the script ends. -/
def advance (isMore : Bool) : Editing Step := do
  let editor ← get
  if (← isLast) && (← get).files.isEmpty || (← isLast) && !editor.settings.isSeparate then
    return .finish true
  if !isMore ∧ !editor.settings.isQuiet then writeLine none editor.line
  flush
  let before := editor.line
  if ← readNext (editor.files.length + 2) then
    if isMore then
      modify fun after => { after with line := before ++ after.settings.lineEnd :: after.line }
    return .onward
  return .quit false 0

/-- Follows the instruction at an index. -/
def act (index : Nat) : Action → Editing Step
  | .openBrace | .closeBrace | .label _ => return .onward
  | .jump condition name => do
    let editor ← get
    let goes : Bool :=
      match condition with
      | .always => true
      | .replaced => editor.isReplaced
      | .unchanged => !editor.isReplaced
    unless condition = .always do modify ({ · with isReplaced := false })
    if !goes then return .onward
    if name.isEmpty then return .finish true
    return .goTo ((labelIndex? name editor.script).getD 0)
  | .append t => do
    modify fun editor => { editor with queue := .text t :: editor.queue }
    return .onward
  | .insert t => do
    printText t
    return .onward
  | .change t => do
    unless ← goesOn index do printText t
    return .finish false
  | .delete => return .finish false
  | .deleteFirst => do
    let editor ← get
    let first := firstLine editor.settings.lineEnd editor.line
    if first.length = editor.line.length then return .finish false
    set { editor with line := editor.line.drop (first.length + 1) }
    return .again
  | .keep isMore => do
    modify fun editor =>
      if isMore then
        { editor with
          kept := editor.kept ++ editor.settings.lineEnd :: editor.line
          keepsEnd := editor.keepsEnd || editor.hasEnd }
      else { editor with kept := editor.line, keepsEnd := editor.hasEnd }
    return .onward
  | .recall isMore => do
    modify fun editor =>
      if isMore then
        { editor with
          line := editor.line ++ editor.settings.lineEnd :: editor.kept
          hasEnd := editor.keepsEnd || editor.hasEnd }
      else { editor with line := editor.kept, hasEnd := editor.keepsEnd }
    return .onward
  | .exchange => do
    modify fun editor =>
      { editor with
        line := editor.kept
        hasEnd := editor.keepsEnd
        kept := editor.line
        keepsEnd := editor.hasEnd }
    return .onward
  | .next => advance false
  | .nextMore => advance true
  | .print isFirst => do
    let editor ← get
    if isFirst then
      printText (firstLine editor.settings.lineEnd editor.line ++ [editor.settings.lineEnd])
    else writeLine none editor.line
    return .onward
  | .printNumber => do
    printText (Text.ofNat (← get).number ++ ['\n'])
    return .onward
  | .printName => do
    printText ((← get).file ++ ['\n'])
    return .onward
  | .display width? => do
    let editor ← get
    printText (wrapped (width?.getD editor.settings.width) 0 (editor.line.map shownChar))
    return .onward
  | .quit prints status => return .quit prints status
  | .read file isLine => do
    let editor ← get
    if !isLine then
      set { editor with queue := .file file :: editor.queue }
      return .onward
    let lines ←
      match editor.readers.lookup file with
      | some lines => pure lines
      | none =>
        match ← onMachine (readPath file) with
        | .ok content => pure (splitText '\n' content).1
        | .error _ => pure []
    let readers := (file, lines.drop 1) :: editor.readers.filter fun entry => entry.1 != file
    let queue := (lines.take 1).map Queued.line ++ editor.queue
    modify ({ · with readers, queue })
    return .onward
  | .write file isFirst => do
    let stream? ← streamNamed file
    let editor ← get
    if isFirst then
      writeLackingEnd stream?
      write stream? (firstLine editor.settings.lineEnd editor.line ++ [editor.settings.lineEnd])
    else writeLine stream? editor.line
    return .onward
  | .replace replacement => do
    let regex ← useRegex replacement.regex?
    let editor ← get
    match replaced? replacement regex editor.line with
    | none => return .onward
    | some line =>
      modify ({ · with line, isReplaced := true })
      if replacement.prints then writeLine none line
      match replacement.file? with
      | some file => writeLine (← streamNamed file) line
      | none => pure ()
      return .onward
  | .replaceCharacters table => do
    modify fun editor =>
      { editor with line := editor.line.map fun c => (table.lookup c).getD c }
    return .onward
  | .clear => do
    modify ({ · with line := [] })
    return .onward

/-- Follows the instructions from an index on, at most this many. -/
def follow : (steps index : Nat) → Editing Step
  | 0, _ => do
    onMachine (waitUntil forever)
    return .quit false 0
  | steps + 1, index => do
    match (← get).script[index]? with
    | none => return .finish true
    | some instruction =>
      let isMeant := (← instruction.scope.isHere index) != instruction.isInverted
      match instruction.action, isMeant with
      | .openBrace, false =>
        follow steps (behindBrace 0 (index + 1) ((← get).script.drop (index + 1)))
      | _, false => follow steps (index + 1)
      | action, true =>
        match ← act index action with
        | .onward => follow steps (index + 1)
        | .goTo index => follow steps index
        | other => return other

/-- How many steps are taken for a line at most. -/
def manySteps : Nat := 100000

/-- Prints the line at the end of its instructions, and what is to be printed behind it. -/
def finishLine (prints : Bool) : Editing Unit := do
  let editor ← get
  if prints ∧ !editor.settings.isQuiet then writeLine none editor.line
  flush

/-- Follows the script for the lines that there are, in at most this many rounds, and gives the
status. -/
def followAll : (rounds : Nat) → (reads : Bool) → Editing Nat
  | 0, _ => do
    onMachine (waitUntil forever)
    return 0
  | rounds + 1, reads => do
    let hasLine ←
      if reads then
        modify ({ · with isReplaced := false })
        readNext ((← get).files.length + 2)
      else pure true
    if !hasLine then return (← get).status
    match ← follow manySteps 0 with
    | .again =>
      finishLine false
      followAll rounds false
    | .quit prints status =>
      finishLine prints
      if prints then writeLackingEnd none
      if status = 0 then return (← get).status
      return status
    | .finish prints =>
      finishLine prints
      followAll rounds true
    | _ => followAll rounds true

/-- Stops reading: of a file that is the input only the lines that have been read are used up, and
one that is replaced keeps the lines that have not been read. -/
def stopReading : Editing Unit := do
  let editor ← get
  if editor.isReading then
    if editor.settings.inPlace?.isSome then
      let rest := Text.joinWith [editor.settings.lineEnd] editor.lines
      unless editor.lines.isEmpty do
        printText (rest ++ if editor.hasLastEnd then [editor.settings.lineEnd] else [])
      replaceFile
    else if editor.file = "-" then
      let (content, isFile) ← onMachine (peek 0)
      let left := editor.lines.foldl (fun left line => left + line.length + 1) 0
      let left := if editor.hasLastEnd then left else left - 1
      let used := if isFile then content.length - left else content.length
      let _ ← onMachine (readFrom 0 (some used))

/-- Opens the files that a script writes to. -/
def openFiles : List Text → Editing Unit
  | [] => return
  | file :: files => do
    let opened ← get
    unless file = "/dev/stdout" ∨ (opened.streams.lookup file).isSome do
      match ← onMachine (openPath .writing file) with
      | .ok stream =>
        modify fun editor => { editor with streams := (file, stream) :: editor.streams }
      | .error fault => fail ("couldn't open file " ++ file ++ ": " ++ fault.reason) 4
    openFiles files

/-- Edits files by a script, and gives the status. -/
def run (settings : Settings) (script : List Instruction) (files : List Text) : Act Nat := do
  let edit : Editing Nat := do
    openFiles (writtenFiles script)
    let status ← followAll 10000000 true
    stopReading
    return status
  let (outcome, _) ← (edit.run).run { settings, script, files }
  match outcome with
  | .ok status => return status
  | .error (message, status) =>
    Utility.say message
    return status

end Edit

end Shell

end SampleHarvest
