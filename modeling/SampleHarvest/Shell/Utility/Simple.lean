import SampleHarvest.Shell.Check
import SampleHarvest.Shell.Search
import SampleHarvest.Shell.Show
import SampleHarvest.Shell.Utility.Basic

/-!
# Utilities that read nothing

They succeed or fail, check a condition, print their arguments or parts of them, wait, or run
another program in a changed environment.
-/

namespace SampleHarvest

namespace Shell

namespace Utility

def succeed : Utility := fun _ _ => return 0

def fail : Utility := fun _ _ => return 1

def check : Utility := fun _ words => do
  match Check.parseStrictly (words.length + 1) words with
  | .error message => abort message 2
  | .ok found =>
    match ← found.holds fun t => "invalid integer " ++ quoted t with
    | .ok value => return if value then 0 else 1
    | .error message => abort message 2

/-- Checks a condition between brackets. -/
def bracket : Utility := fun runner words => do
  match Check.unbracketed? words with
  | some words => check runner words
  | none => abort "missing '\x5d'" 2

/-- Whether a word is a group of letters about escapes and line ends. -/
def isEchoGroup (word : Text) : Bool :=
  match word with
  | '-' :: c :: letters => (c :: letters).all fun c => c == 'n' || c == 'e' || c == 'E'
  | _ => false

/-- Prints its arguments. -/
def echo : Utility := fun _ words => do
  let groups := words.takeWhile isEchoGroup
  let words := words.drop groups.length
  let letters := groups.flatten
  let hasEnd := !letters.any (· == 'n')
  let hasEscapes := (letters.filter fun c => c == 'e' || c == 'E').getLast? == some 'e'
  if hasEscapes then put (echoText hasEnd words)
  else
    put (Text.joinWith [' '] words)
    if hasEnd then put ['\n']
  return 0

/-- Prints its arguments by a format. -/
def printf : Utility := fun _ words => do
  let words := if words.head? = some ['-', '-'] then words.drop 1 else words
  match words with
  | [] => misuse "missing operand"
  | format :: words =>
    let (output, warnings, fault?) := printFormat format words
    for warning in warnings do
      let (argument, reason) := (Text.splitLast? ':' warning).getD (warning, [])
      let reason : Text :=
        if reason = " expected numeric value" then " expected a numeric value"
        else if reason = " not completely converted" then " value not completely converted"
        else reason
      say (quoted argument ++ [':'] ++ reason)
    put output
    match fault? with
    | some message => abort message
    | none => return if warnings.isEmpty then 0 else 1

/-- A path without the slashes at its end; one slash stays if there is nothing else. -/
def trimSlashes (path : Text) : Text :=
  let kept := (path.reverse.dropWhile (· = '/')).reverse
  if kept.isEmpty then path.take 1 else kept

def lastName (path : Text) : Text :=
  let path := trimSlashes path
  match Text.splitLast? '/' path with
  | some (_, []) => path
  | some (_, name) => name
  | none => path

/-- A name without an ending, unless nothing else would be left. -/
def dropEnding (ending name : Text) : Text :=
  if Text.endsWith name ending ∧ name ≠ ending then name.take (name.length - ending.length)
  else name

/-- Prints the last parts of paths. -/
def basename : Utility := fun _ words =>
  withOptions
    { flags := ['a', 'z'], valued := ['s'], endsAtOperand := true
      names := [⟨"multiple", 'a', false⟩, ⟨"suffix", 's', true⟩, ⟨"zero", 'z', false⟩] }
    words fun given => do
      let ending? := given.value? 's'
      let isMany := given.has 'a' || ending?.isSome
      let stop : Char := if given.has 'z' then '\x00' else '\n'
      let print (ending path : Text) : Act Unit := put (dropEnding ending (lastName path) ++ [stop])
      match given.operands with
      | [] => misuse "missing operand"
      | path :: others =>
        if isMany then
          for path in path :: others do
            print (ending?.getD []) path
          return 0
        match others with
        | [] =>
          print [] path
          return 0
        | [ending] =>
          print ending path
          return 0
        | _ :: extra :: _ => misuse ("extra operand " ++ quoted extra)

/-- The path of what holds the last part of a path. -/
def folderOf (path : Text) : Text :=
  let path := trimSlashes path
  match Text.splitLast? '/' path with
  | some (front, name) =>
    if name.isEmpty then ['/']
    else
      let front := trimSlashes front
      if front.isEmpty then ['/'] else front
  | none => ['.']

/-- Prints paths without their last parts. -/
def dirname : Utility := fun _ words =>
  withOptions { flags := ['z'], names := [⟨"zero", 'z', false⟩] } words fun given => do
    if given.operands.isEmpty then misuse "missing operand"
    else
      for path in given.operands do
        put (folderOf path ++ [if given.has 'z' then '\x00' else '\n'])
      return 0

/-- A decimal number: a whole number of units of its last decimal, and how many decimals it has. -/
structure Decimal where
  units : Int
  decimals : Nat
  deriving DecidableEq, Repr

namespace Decimal

def ofText? (t : Text) : Option Decimal :=
  let (isNegative, t) : Bool × Text :=
    match t.dropWhile Text.isRawBlank with
    | '-' :: t => (true, t)
    | '+' :: t => (false, t)
    | t => (false, t)
  let (mantissa, power?) : Text × Option Int :=
    match Text.splitFirst? 'e' (Text.lower t) with
    | some (front, '-' :: back) => (front, (Text.toNat? back).map fun n => -(n : Int))
    | some (front, '+' :: back) => (front, (Text.toNat? back).map Int.ofNat)
    | some (front, back) => (front, (Text.toNat? back).map Int.ofNat)
    | none => (t, some 0)
  let (whole, fraction) := (Text.splitFirst? '.' mantissa).getD (mantissa, [])
  let digits := whole ++ fraction
  match power?, Text.toNat? digits with
  | some power, some n =>
    let n : Int := if isNegative then -(n : Int) else n
    let decimals : Int := fraction.length - power
    if decimals < 0 then
      if decimals < -400 then none else some ⟨n * (Nat.pow 10 decimals.natAbs : Nat), 0⟩
    else some ⟨n, decimals.toNat⟩
  | _, _ => none

/-- The whole number of units when the last one is of this many decimals. -/
def scaled (d : Decimal) (decimals : Nat) : Int :=
  d.units * (Nat.pow 10 (decimals - d.decimals) : Nat)

/-- A whole number of units with some decimals, of which so many are shown. -/
def text (decimals shown : Nat) (units : Int) : Text :=
  let units := units / (Nat.pow 10 (decimals - shown) : Nat)
  (if units < 0 then ['-'] else []) ++ Ratio.withPoint shown units.natAbs

end Decimal

/-- The numbers from one on by steps, up to a last one, at most so many. -/
def progression (step last : Int) : (most : Nat) → Int → List Int
  | 0, _ => []
  | most + 1, n =>
    if (0 < step ∧ last < n) ∨ (step < 0 ∧ n < last) then []
    else n :: progression step last most (n + step)

/-- The most lines that a program prints that has no end by itself. -/
def manyLines : Nat := 20000

/-- Prints numbers, filled up to the same width if that is wanted, or by a format. -/
def printNumbers (given : Given) (first step last : Decimal) : Act Nat := do
  let decimals := max first.decimals (max step.decimals last.decimals)
  let shown := max first.decimals step.decimals
  let numbers := progression (step.scaled decimals) (last.scaled decimals) 1000000
    (first.scaled decimals)
  let texts := numbers.map (Decimal.text decimals shown)
  let width := texts.foldl (fun n (t : Text) => max n t.length) 0
  let fill (t : Text) : Text :=
    match t with
    | '-' :: t => '-' :: (List.replicate (width - 1 - t.length) '0' ++ t)
    | t => List.replicate (width - t.length) '0' ++ t
  let texts :=
    match given.value? 'f' with
    | some format => texts.map fun t => (printFormat format [t]).1
    | none => if given.has 'w' then texts.map fill else texts
  unless texts.isEmpty do
    put (Text.joinWith ((given.value? 's').getD ['\n']) texts ++ ['\n'])
  return 0

/-- Whether a word is a number with a minus sign. -/
def isNegativeNumber (word : Text) : Bool :=
  match word with
  | '-' :: c :: _ => c.isDigit || c == '.'
  | _ => false

/-- Prints a row of numbers. -/
def seq : Utility := fun _ words => do
  let options := words.takeWhile fun word => !isNegativeNumber word
  let rest := words.drop options.length
  let knowledge : Knowledge :=
    { flags := ['w'], valued := ['f', 's'], endsAtOperand := true
      names := [⟨"equal-width", 'w', false⟩, ⟨"format", 'f', true⟩, ⟨"separator", 's', true⟩] }
  withOptions knowledge options fun given => do
    let numbers := given.operands ++ rest
    let act (first step last : Text) : Act Nat := do
      let invalid? := [first, step, last].find? fun t => (Decimal.ofText? t).isNone
      match invalid?, Decimal.ofText? first, Decimal.ofText? step, Decimal.ofText? last with
      | none, some first, some increment, some last =>
        if increment.units = 0 then misuse ("invalid Zero increment value: " ++ quoted step)
        else printNumbers given first increment last
      | some t, _, _, _ => misuse ("invalid floating point argument: " ++ quoted t)
      | _, _, _, _ => return 1
    match numbers with
    | [] => misuse "missing operand"
    | [last] => act ['1'] ['1'] last
    | [first, last] => act first ['1'] last
    | [first, step, last] => act first step last
    | _ :: _ :: _ :: extra :: _ => misuse ("extra operand " ++ quoted extra)

def milliseconds? (word : Text) : Option Nat :=
  let unit? : Option (Nat × Text) :=
    match word.reverse with
    | 's' :: front => some (1000, front.reverse)
    | 'm' :: front => some (60000, front.reverse)
    | 'h' :: front => some (3600000, front.reverse)
    | 'd' :: front => some (86400000, front.reverse)
    | _ => some (1000, word)
  match unit? with
  | some (unit, number) =>
    if Text.lower number = "infinity" ∨ Text.lower number = "inf" then some forever
    else
      match Decimal.ofText? number with
      | some d => if d.units < 0 then none else some (d.units.toNat * unit / Nat.pow 10 d.decimals)
      | none => none
  | none => none

def sleep : Utility := fun _ words =>
  withOptions {} words fun given => do
    if given.operands.isEmpty then misuse "missing operand"
    else
      match given.operands.find? fun word => (milliseconds? word).isNone with
      | some word => misuse ("invalid time interval " ++ quoted word)
      | none =>
        for word in given.operands do
          wait ((milliseconds? word).getD 0)
        return 0

/-- Prints the working folder. -/
def pwd : Utility := fun _ _ => do
  putLine (← folderPath)
  return 0

/-- Prints the same line again and again. -/
def yes : Utility := fun _ words => do
  let line := (if words.isEmpty then ['y'] else Text.joinWith [' '] words) ++ ['\n']
  put (List.replicate manyLines line).flatten
  if (← get).canPrint then waitUntil forever
  return 0

/-- Prints what the system is called. -/
def uname : Utility := fun _ _ => do
  putLine "Linux"
  return 0

/-- Prints who runs the process. -/
def whoami : Utility := fun _ _ => do
  putLine "root"
  return 0

/-- Prints the environment, or the values of some variables. -/
def printenv : Utility := fun _ names => do
  let environment := (← getProcess).environment
  if names.isEmpty then
    for (name, value) in environment do
      putLine (name ++ ['='] ++ value)
    return 0
  let mut status := 0
  for name in names do
    match environment.lookup name with
    | some value => putLine value
    | none => status := 1
  return status

/-- Gives the process the variables of assignments, and gives the words behind them. -/
def takeAssignments : List Text → Act (List Text)
  | [] => return []
  | word :: words => do
    match Text.splitFirst? '=' word with
    | some (name, value) =>
      modifyProcess (·.setVariable name { value? := some value, isExported := true })
      takeAssignments words
    | none => return word :: words

/-- Runs a program in a changed environment. -/
def env : Utility := fun runner words => do
  let knowledge : Knowledge :=
    { flags := ['i', '0'], valued := ['u', 'C', 'S'], endsAtOperand := true
      names := [⟨"ignore-environment", 'i', false⟩, ⟨"null", '0', false⟩, ⟨"unset", 'u', true⟩,
        ⟨"chdir", 'C', true⟩] }
  let act (given : Given) : Act Nat := do
    let isEmpty := given.has 'i' || given.operands.head? == some ['-']
    let operands :=
      if given.operands.head? = some ['-'] then given.operands.drop 1 else given.operands
    modifyProcess fun process =>
      let kept := process.bindings.filter fun entry => !(given.values 'u').contains entry.1
      { process with bindings := if isEmpty then [] else kept }
    match ← takeAssignments operands with
    | [] =>
      for (name, value) in (← getProcess).environment.reverse do
        putLine (name ++ ['='] ++ value)
      return 0
    | name :: arguments =>
      match ← runNamed runner (name :: arguments) with
      | none => return (← getProcess).status
      | some fault =>
        let status := if fault = .missing ∨ fault = .notFolder then 127 else 126
        abort (quoted name ++ ": " ++ fault.reason) status
  withOptions knowledge words act 125

end Utility

end Shell

end SampleHarvest
