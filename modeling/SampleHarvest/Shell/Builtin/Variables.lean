import SampleHarvest.Shell.Builtin.Basic
import SampleHarvest.Shell.Expansion

/-!
# Commands on variables

Variables are marked and hidden, removed, and filled from what is read or from the letters among the
arguments. The arguments of the shell are variables too, and so are its settings.
-/

namespace SampleHarvest

namespace Shell

namespace Builtin

/-- The name of a variable and the value that a word gives it, if it gives one. -/
def namedValue (word : Text) : Text × Option Text :=
  match Text.splitFirst? '=' word with
  | some (name, value) => (name, some value)
  | none => (word, none)

/-- Marks the variables that words name, and gives them values. -/
def markAll (mark : Variable → Variable) : List Text → Act Nat
  | [] => return 0
  | word :: words => do
    let (name, value?) := namedValue word
    if !isName name then refuse (name ++ ": bad variable name")
    else
      match value? with
      | some value => assign name value
      | none => pure ()
      if ← isStopped then return 2
      modifyProcess fun process =>
        process.setVariable name (mark ((process.bindings.lookup name).getD {}))
      markAll mark words

def marking (name : Text) (isMarked : Variable → Bool) (mark : Variable → Variable) : Builtin :=
  fun _ words =>
    withLetters ['p'] [] words fun found words => do
      if words.isEmpty ∨ !found.isEmpty then
        listVariables (name ++ [' ']) isMarked
        return 0
      markAll mark words

/-- Marks variables as meant for programs. -/
def exporting : Builtin :=
  marking "export" Variable.isExported ({ · with isExported := true })

/-- Marks variables as fixed. -/
def fixing : Builtin :=
  marking "readonly" Variable.isReadonly ({ · with isReadonly := true })

/-- Keeps what variables are, up to the end of the named command. -/
def hideAll : List Text → Act Nat
  | [] => return 0
  | word :: words => do
    let (name, value?) := namedValue word
    if name = ['-'] then hideAll words
    else if !isName name then refuse (name ++ ": bad variable name")
    else
      modifyProcess fun process =>
        { process with hidden := (name, process.bindings.lookup name) :: process.hidden }
      match value? with
      | some value => assign name value
      | none => pure ()
      if ← isStopped then return 2
      hideAll words

/-- Makes variables those of the named command. -/
def localizing : Builtin := fun _ words => do
  if (← getProcess).calls = 0 then refuse "not in a function" else hideAll words

def removeVariables : List Text → Act Nat
  | [] => return 0
  | name :: names => do
    if !isName name then refuse (name ++ ": bad variable name")
    else
      let process ← getProcess
      if (process.bindings.lookup name).any Variable.isReadonly then
        refuse (name ++ ": is read only")
      else
        let bindings := process.bindings.filter fun entry => entry.1 != name
        modifyProcess ({ · with bindings })
        removeVariables names

/-- Removes variables or names of commands. -/
def unset : Builtin := fun _ words =>
  withLetters ['f', 'v'] [] words fun found words => do
    if (found.getLast?.map Prod.fst) = some 'f' then
      modifyProcess fun process =>
        { process with
          functions := process.functions.filter fun entry => !words.contains entry.1 }
      return 0
    removeVariables words

/-- The settings with their letters and names. -/
def settings : List (Option Char × Text) :=
  [(some 'e', "errexit"), (some 'f', "noglob"), (some 'I', "ignoreeof"), (some 'i', "interactive"),
    (some 'm', "monitor"), (some 'n', "noexec"), (some 's', "stdin"), (some 'x', "xtrace"),
    (some 'v', "verbose"), (some 'V', "vi"), (some 'E', "emacs"), (some 'C', "noclobber"),
    (some 'a', "allexport"), (some 'b', "notify"), (some 'u', "nounset"),
    (some 'p', "privileged"), (none, "nolog"), (none, "debug")]

def turn (isOn : Bool) (letter : Char) : Act Unit :=
  modifyProcess fun process =>
    let others := process.settings.filter (· != letter)
    { process with settings := if isOn then letter :: others else others }

def isOn (process : Process) (letter? : Option Char) : Bool := letter?.any process.has

def listSettings (asCommands : Bool) : Act Unit := do
  let process ← getProcess
  unless asCommands do putLine "Current option settings"
  for (letter?, name) in settings do
    let on := isOn process letter?
    if asCommands then putLine ("set " ++ (if on then ['-', 'o', ' '] else ['+', 'o', ' ']) ++ name)
    else putLine (Text.padRight 16 name ++ if on then ['o', 'n'] else ['o', 'f', 'f'])

/-- The words behind the settings at the front, and whether there is a sign that they are arguments
even if there are none; or what is wrong with a setting. -/
def takeSettings : List Text → Act (Except Text (List Text × Bool))
  | [] => return .ok ([], false)
  | word :: words => do
    match word with
    | sign :: letter :: letters =>
      if word = "--" then return .ok (words, true)
      if sign ≠ '-' ∧ sign ≠ '+' then return .ok (word :: words, true)
      let rec turnAll : Text → Act (Except Text Bool)
        | [] => return .ok false
        | letter :: letters => do
          if letter = 'o' then
            match words with
            | [] =>
              listSettings (sign == '+')
              turnAll letters
            | name :: _ =>
              match settings.find? fun entry => entry.2 == name with
              | some (letter?, _) =>
                match letter? with
                | some letter => turn (sign == '-') letter
                | none => pure ()
                match ← turnAll letters with
                | .ok _ => return .ok true
                | .error message => return .error message
              | none => return .error ("Illegal option " ++ [sign, 'o', ' '] ++ name)
          else if settings.any fun entry => entry.1 == some letter then
            turn (sign == '-') letter
            turnAll letters
          else return .error ("Illegal option " ++ [sign, letter])
      match ← turnAll (letter :: letters) with
      | .error message => return .error message
      | .ok true =>
        match words with
        | _ :: words => takeSettings words
        | [] => return .ok ([], false)
      | .ok false => takeSettings words
    | ['-'] =>
      turn false 'x'
      turn false 'v'
      return .ok (words, !words.isEmpty)
    | _ => return .ok (word :: words, true)

/-- Changes settings and arguments, or shows all variables. -/
def setting : Builtin := fun _ words => do
  if words.isEmpty then
    listVariables [] fun found => found.value?.isSome
    return 0
  match ← takeSettings words with
  | .error message => refuse message
  | .ok (arguments, isGiven) =>
    if isGiven then modifyProcess ({ · with arguments, nextLetter := (1, 0) })
    return 0

/-- Takes arguments away from the front. -/
def shift : Builtin := fun _ words => do
  let act (n : Nat) : Act Nat := do
    let arguments := (← getProcess).arguments
    if arguments.length < n then refuse "can't shift that many"
    else
      modifyProcess ({ · with arguments := arguments.drop n })
      return 0
  match words with
  | [] => act 1
  | word :: _ => withNumber word act

/-- A line with its escapes taken away, in which each character says whether it may be cut; and
whether the line has an end. Lines are read until one ends without an escape, at most this many. -/
def readEscaped (keepsEscapes : Bool) : (most : Nat) → Act (Field × Bool)
  | 0 => return ([], false)
  | most + 1 => do
    let line ← readLine 0
    let rec cut : Text → Field × Option Bool
      | [] => ([], some false)
      | ['\n'] => ([], some true)
      | c :: rest =>
        if c = '\x00' then cut rest
        else if c = '\\' ∧ !keepsEscapes then
          match rest with
          | [] => ([], some false)
          | ['\n'] => ([], none)
          | c :: rest =>
            let (others, ending) := cut rest
            ((c, false) :: others, ending)
        else
          let (others, ending) := cut rest
          ((c, true) :: others, ending)
    match cut line with
    | (field, some isEnded) => return (field, isEnded)
    | (field, none) =>
      let (others, isEnded) ← readEscaped keepsEscapes most
      return (field ++ others, isEnded)

/-- The values that variables get from a line, the last one all that is left. -/
def shareOut (separators : Text) : (count : Nat) → Field → List Text
  | 0, _ => []
  | count + 1, field =>
    let cuts (entry : Char × Bool) : Bool := entry.2 && separators.any (· == entry.1)
    let isBlank (entry : Char × Bool) : Bool := cuts entry && Text.isRawBlank entry.1
    let field := field.dropWhile isBlank
    let first := field.takeWhile fun entry => !cuts entry
    let behind := (field.drop first.length).dropWhile isBlank
    let behind :=
      match behind with
      | entry :: others => if cuts entry then others.dropWhile isBlank else behind
      | [] => behind
    if count = 0 ∧ !behind.isEmpty then
      [Field.text (field.reverse.dropWhile isBlank).reverse]
    else Field.text first :: shareOut separators count behind

/-- Gives variables their values. -/
def assignAll : List (Text × Text) → Act Nat
  | [] => return 0
  | (name, value) :: others => do
    if !isName name then refuse (name ++ ": bad variable name")
    else
      assign name value
      if ← isStopped then return 2
      assignAll others

/-- Reads a line into variables. -/
def reading : Builtin := fun _ words =>
  withLetters ['r'] ['p'] words fun found names => do
    if names.isEmpty then refuse "arg count"
    else
      let keepsEscapes := found.any fun entry => entry.1 == 'r'
      let (field, isEnded) ← readEscaped keepsEscapes 10000
      let values := shareOut (← separators) names.length field
      let status ← assignAll (names.zip values)
      return if status = 0 ∧ !isEnded then 1 else status

/-- Removes a variable. -/
def forget (name : Text) : Act Unit :=
  modifyProcess fun process =>
    { process with bindings := process.bindings.filter fun entry => entry.1 != name }

/-- What is found when letters are looked for among words. -/
structure LetterSearch where
  letter : Char
  value? : Option Text
  next : Nat × Nat
  message? : Option Text := none
  isOver : Bool := false

/-- Whether a letter is among those that are known, and has a value. -/
def letterKind? (c : Char) : Text → Option Bool
  | [] => none
  | other :: ':' :: known => if other = c then some true else letterKind? c known
  | other :: known => if other = c then some false else letterKind? c known

/-- Looks for the next letter among words. -/
def searchLetter (known : Text) (words : List Text) (next : Nat × Nat) : LetterSearch :=
  let (index, offset) := next
  let isQuiet := known.head? == some ':'
  let current := (words[index - 2]?.getD []).drop offset
  let goesOn := 1 < index && offset != 0 && !current.isEmpty
  let found? : Option (Text × Nat) :=
    if goesOn then some (current, index)
    else
      match words[index - 1]? with
      | some ('-' :: c :: rest) => some (c :: rest, index + 1)
      | _ => none
  match found? with
  | none => { letter := '?', value? := none, next := (index, 0), isOver := true }
  | some (['-'], index) =>
    if goesOn then { letter := '?', value? := none, next := (index, 0) }
    else { letter := '?', value? := none, next := (index, 0), isOver := true }
  | some ([], index) => { letter := '?', value? := none, next := (index, 0), isOver := true }
  | some (c :: rest, index) =>
    let word := words[index - 2]?.getD []
    let behind := if rest.isEmpty then 0 else word.length - rest.length
    match letterKind? c (if isQuiet then known.drop 1 else known) with
    | none =>
      if isQuiet then { letter := '?', value? := some [c], next := (index, behind) }
      else
        { letter := '?', value? := none, next := (index, behind)
          message? := some ("Illegal option -" ++ [c]) }
    | some false => { letter := c, value? := some [], next := (index, behind) }
    | some true =>
      if !rest.isEmpty then { letter := c, value? := some rest, next := (index, 0) }
      else
        match words[index - 1]? with
        | some value => { letter := c, value? := some value, next := (index + 1, 0) }
        | none =>
          if isQuiet then { letter := ':', value? := some [c], next := (index, 0) }
          else
            { letter := '?', value? := none, next := (index, 0)
              message? := some ("No arg for -" ++ [c] ++ " option") }

/-- Looks for the next letter among the arguments. -/
def getopts : Builtin := fun _ words => do
  match words with
  | known :: name :: given =>
    let process ← getProcess
    let index := ((process.value? "OPTIND").bind Text.toNat?).getD 1
    let next := if index = process.nextLetter.1 then process.nextLetter else (max index 1, 0)
    let found := searchLetter known (if given.isEmpty then process.arguments else given) next
    match found.message? with
    | some message => complain message
    | none => pure ()
    match found.value? with
    | some value => assign "OPTARG" value
    | none => unless found.isOver do forget "OPTARG"
    assign "OPTIND" (Text.ofNat found.next.1)
    modifyProcess ({ · with nextLetter := found.next })
    let status ← assignAll [(name, [found.letter])]
    return if status = 0 ∧ found.isOver then 1 else status
  | _ => refuse "Usage: getopts optstring var [arg...]"

end Builtin

end Shell

end SampleHarvest
