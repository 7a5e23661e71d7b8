import SampleHarvest.Shell.Record.Session

/-!
# Running record programs

The rules for the beginning come first, then those for each record, and at last those for the end.
Records are read only if some rule is for them or for the end.
-/

namespace SampleHarvest

namespace Shell

namespace Record

def textOf (value : Value) : Doing Text := do return value.toText (← get).format

/-- What an operator makes of two numbers. -/
def calculate (operator : Operator) (x y : Float) : Float :=
  match operator with
  | .add => x + y
  | .subtract => x - y
  | .multiply => x * y
  | .divide => x / y
  | .modulo => remainder x y
  | .power => Float.pow x y

def Comparison.holds : Comparison → (isLess isEqual : Bool) → Bool
  | .less, isLess, _ => isLess
  | .atMost, isLess, isEqual => isLess || isEqual
  | .equal, _, isEqual => isEqual
  | .unequal, _, isEqual => !isEqual
  | .more, isLess, isEqual => !isLess && !isEqual
  | .atLeast, isLess, _ => !isLess

/-- The text that is put in for a match: a sign stands for what has been matched. -/
def inserted (fitted : Text) : Text → Text
  | '\\' :: '&' :: t => '&' :: inserted fitted t
  | '\\' :: '\\' :: t => '\\' :: inserted fitted t
  | '&' :: t => fitted ++ inserted fitted t
  | c :: t => c :: inserted fitted t
  | [] => []

/-- A text with the first match or all of them replaced, and how many there were. -/
def replaceMatches (regex : Regex) (isGlobal : Bool) (replacement t : Text) : Text × Nat :=
  let (found, rest) := regex.findAll (2 * t.length + 2) none false t
  let replaced := if isGlobal then found.length else min found.length 1
  ((found.zipIdx.flatMap fun ((front, found), i) =>
    front ++ if i < replaced then inserted found.fitted replacement else found.fitted) ++ rest,
    replaced)

/-- A part of a text from a place on, with a length if there is one. -/
def portion (t : Text) (start : Int) (length? : Option Int) : Text :=
  match length? with
  | none => t.drop (start.toNat - 1)
  | some length =>
    let length := if start < 0 then length - start else length
    (t.drop (start.toNat - 1)).take length.toNat

/-- Where a text is found in another one, counted from one on. -/
def indexOf (part : Text) : (place : Nat) → Text → Nat
  | place, [] => if part.isEmpty then place else 0
  | place, c :: t => if Text.startsWith (c :: t) part then place else indexOf part (place + 1) t

structure Formatted where
  text : Text := []
  defect? : Option Text := none

def wholeNumber (x : Float) : Int :=
  max (-(maxWhole : Int) - 1) (min maxWhole (truncated x))

/-- The text of values in the places of a format; `count` places have been passed. -/
def formatText (numberFormat : Text) (name format : Text) :
    (count : Nat) → List Value → List FormatPiece → Formatted
  | _, _, [] => {}
  | count, values, .text t :: pieces =>
    let others := formatText numberFormat name format count values pieces
    { others with text := t ++ others.text }
  | count, values, .unfinished written :: pieces =>
    let others := formatText numberFormat name format count values pieces
    { others with text := written ++ others.text }
  | count, values, .place flags width precision conversion _ :: pieces =>
    let lacking : Formatted :=
      { defect? := some ("not enough arguments passed to " ++ name ++ "(\"" ++ format ++ "\")") }
    let needed (number : FormatNumber) (values : List Value) :
        Option (Option Int) × List Value :=
      match number, values with
      | .absent, values => (some none, values)
      | .given n, values => (some (some n), values)
      | .argument, value :: values => (some (some (truncated value.toNumber)), values)
      | .argument, [] => (none, [])
    let (width?, values) := needed width values
    let (precision?, values) := needed precision values
    match width?, precision?, values with
    | some width, some precision, value :: values =>
      let width := width.getD 0
      let flags := if width < 0 then '-' :: flags else flags
      let precision? := precision.bind fun n => if n < 0 then none else some n.toNat
      let specifier : Specifier := { flags, width := width.natAbs, precision?, conversion }
      let shown? : Option Text :=
        if conversion = 's' then some (specifier.showText (value.toText numberFormat))
        else if conversion = 'c' then
          match value with
          | .text t => some (specifier.pad [t.headD '\x00'])
          | .both t _ => some (specifier.pad [t.headD '\x00'])
          | value => some (specifier.pad [Char.ofNat ((wholeNumber value.toNumber) % 256).toNat])
        else if conversion = 'd' ∨ conversion = 'i' then
          some (specifier.showInteger (wholeNumber value.toNumber))
        else if "ouxX".toList.any (· == conversion) then
          some (specifier.showInteger (wholeNumber value.toNumber))
        else if "eEfFgG".toList.any (· == conversion) then some (specifier.showFloat value.toNumber)
        else none
      match shown? with
      | some shown =>
        let others := formatText numberFormat name format (count + 1) values pieces
        { others with text := shown ++ others.text }
      | none =>
        { defect? := some ("improper conversion(number " ++ Text.ofNat (count + 1) ++ ") in " ++
            name ++ "(\"" ++ format ++ "\")") }
    | _, _, _ => lacking

/-- The text of values in a format; what has come before something wrong is printed by the act. -/
def format (name : Text) (emit : Text → Doing Unit) (values : List Value) : Doing Unit := do
  let session ← get
  match values with
  | [] => return
  | first :: values =>
    let format ← textOf first
    let pieces := formatPieces (format.length + 1) format
    let formatted := formatText session.format name format 0 values pieces
    emit formatted.text
    match formatted.defect? with
    | some defect =>
      let shown (name : Text) : Text := session.setting name
      fail ("run time error: " ++ defect ++ "\n\tFILENAME=\"" ++ shown "FILENAME" ++ "\" FNR=" ++
        shown "FNR" ++ " NR=" ++ shown "NR")
    | none => return

def keyOf (values : List Value) : Doing (Text × Option Int) := do
  let session ← get
  match values with
  | [.number x] => return (numberText session.format x, whole? x)
  | values =>
    let separator := session.setting "SUBSEP"
    return (Text.joinWith separator (values.map (·.toText session.format)), none)

/-- Looks a key up in a table, and gives its value; a key that is missing is added. -/
def lookUp (name : Text) (key : Text × Option Int) : Doing Value := do
  let found ← table name
  let touched :=
    match key.2 with
    | some n => found.touchNumber n
    | none => found.touchText key.1
  match found.get? key.1 with
  | some value =>
    setTable name touched
    return value
  | none =>
    setTable name (touched.insert key.1 .missing)
    return .missing

def setEntry (name : Text) (key : Text × Option Int) (value : Value) : Doing Unit := do
  let _ ← lookUp name key
  setTable name ((← table name).insert key.1 value)

def numberFunction? (name : Text) : Option (Float → Float) :=
  if name = "int" then some fun x =>
    match whole? x, FloatKind.of x with
    | none, .finite _ _ => Float.ofInt (truncated x)
    | _, _ => x
  else if name = "sqrt" then some Float.sqrt
  else if name = "exp" then some Float.exp
  else if name = "log" then some Float.log
  else if name = "sin" then some Float.sin
  else if name = "cos" then some Float.cos
  else none

/-- A place with its number or key, so that it can be read and set. -/
inductive Spot where
  | named (name : Text)
  | element (table : Text) (key : Text × Option Int)
  | field (number : Nat)

def Spot.get : Spot → Doing Value
  | .named name => valueOf name
  | .element table key => lookUp table key
  | .field 0 => do return .ofRead (← MonadState.get).record
  | .field (number + 1) => do
    match (← MonadState.get).fields[number]? with
    | some t => return .ofRead t
    | none => return .missing

def Spot.set (spot : Spot) (value : Value) : Doing Unit := do
  match spot with
  | .named name => setVariable name value
  | .element table key => setEntry table key value
  | .field number => setField number (← textOf value)

def fieldSpot (value : Value) : Doing Spot := do
  let n := truncated value.toNumber
  if n < 0 then
    let session ← get
    let shown (name : Text) : Text := session.setting name
    fail ("run time error: negative field index $" ++ Text.ofInt n ++ "\n\tFILENAME=\"" ++
      shown "FILENAME" ++ "\" FNR=" ++ shown "FNR" ++ " NR=" ++ shown "NR")
  return .field n.toNat

/-- What is evaluated or done. -/
inductive Task where
  | value (expr : Expr)
  | values (exprs : List Expr)
  | statement (statement : Statement)
  | rounds (condition? : Option Expr) (step? : Option Statement) (body : Statement)
  | keys (place : Place) (keys : List Text) (body : Statement)

/-- Goes on unless a loop is left. -/
def inRound (act : Doing Unit) : Doing Bool := fun session => do
  let (outcome, session) ← act session
  match outcome with
  | .ok _ => return (.ok true, session)
  | .error .broken => return (.ok false, session)
  | .error .nextRound => return (.ok true, session)
  | .error leave => return (.error leave, session)

/-- Follows a function, and gives the value that it gives back. -/
def inFunction (act : Doing Unit) : Doing Value := fun session => do
  let (outcome, session) ← act session
  match outcome with
  | .ok _ => return (.ok .missing, session)
  | .error (.returned value) => return (.ok value, session)
  | .error leave => return (.error leave, session)

/-- Does a task, with at most this many steps inside each other, and gives the values. -/
def perform : (steps : Nat) → Task → Doing (List Value)
  | 0, _ => do
    onMachine (waitUntil forever)
    throw .exited
  | _, .values [] => return []
  | steps + 1, .values (expr :: exprs) => do
    let first ← perform steps (.value expr)
    return first ++ (← perform steps (.values exprs))
  | steps + 1, .rounds condition? step? body => do
    let goesOn ←
      match condition? with
      | some condition => (·.any Value.isTrue) <$> perform steps (.value condition)
      | none => pure true
    if !goesOn then return []
    if !(← inRound (do
        let _ ← perform steps (.statement body))) then return []
    match step? with
    | some step =>
      let _ ← perform steps (.statement step)
    | none => pure ()
    perform steps (.rounds condition? step? body)
  | _, .keys _ [] _ => return []
  | steps + 1, .keys place (key :: keys) body => do
    let spot ← spotOf steps place
    spot.set (.text key)
    if ← inRound (do
        let _ ← perform steps (.statement body)) then
      perform steps (.keys place keys body)
    else return []
  | steps + 1, .statement statement => do
    let value (expr : Expr) : Doing Value := do
      return (← perform steps (.value expr)).headD .missing
    match statement with
    | .expression expr =>
      let _ ← value expr
    | .print arguments hasFormat target =>
      let values ← perform steps (.values arguments)
      let emit : Text → Doing Unit ←
        match target with
        | .output => pure printOut
        | .file name appends => do
          let name ← textOf (← value name)
          pure (printFile name appends)
        | .command name => do
          let name ← textOf (← value name)
          pure (printCommand name)
      if hasFormat then format "printf" emit values
      else
        let session ← get
        if arguments.isEmpty then emit (session.record ++ session.setting "ORS")
        else
          let texts := values.map (·.toText (session.setting "OFMT"))
          emit (Text.joinWith (session.setting "OFS") texts ++ session.setting "ORS")
    | .condition condition first second? =>
      if (← value condition).isTrue then
        let _ ← perform steps (.statement first)
      else
        match second? with
        | some second =>
          let _ ← perform steps (.statement second)
        | none => pure ()
    | .whileTrue condition body =>
      let _ ← perform steps (.rounds (some condition) none body)
    | .doWhile body condition =>
      if ← inRound (do
          let _ ← perform steps (.statement body)) then
        let _ ← perform steps (.rounds (some condition) none body)
    | .loop first? condition? step? body =>
      match first? with
      | some first =>
        let _ ← perform steps (.statement first)
      | none => pure ()
      let _ ← perform steps (.rounds condition? step? body)
    | .forKeys place name body =>
      let found ← table name
      setTable name found.withTexts
      let _ ← perform steps (.keys place found.keys body)
    | .block [] => pure ()
    | .block (first :: others) =>
      let _ ← perform steps (.statement first)
      let _ ← perform steps (.statement (.block others))
    | .next => throw .next
    | .nextFile => throw .nextFile
    | .leave status? =>
      match status? with
      | some status =>
        let n := truncated (← value status).toNumber
        modify ({ · with status := (n % 256).toNat })
      | none => pure ()
      throw .exited
    | .giveBack value? =>
      match value? with
      | some expr => throw (.returned (← value expr))
      | none => throw (.returned .missing)
    | .breakLoop => throw .broken
    | .nextRound => throw .nextRound
    | .delete name [] => setTable name {}
    | .delete name keys =>
      let (key, _) ← keyOf (← perform steps (.values keys))
      setTable name ((← table name).erase key)
    return []
  | steps + 1, .value expr => do
    let value (expr : Expr) : Doing Value := do
      return (← perform steps (.value expr)).headD .missing
    let regexFor (expr : Expr) : Doing Regex := do
      match expr.regex? with
      | some regex => return regex
      | none =>
        match regexOf (← textOf (← value expr)) with
        | .ok regex => return regex
        | .error message => fail ("line 1: " ++ message)
    match expr with
    | .number x => return [.number x]
    | .text t => return [.text t]
    | .pattern regex => return [.ofBool (regex.fitsIn (← get).record)]
    | .value place =>
      let spot ← spotOf steps place
      return [← spot.get]
    | .assign place operator? inner =>
      let found ← value inner
      let spot ← spotOf steps place
      match operator? with
      | none =>
        spot.set found
        return [found]
      | some operator =>
        let result := Value.number (calculate operator (← spot.get).toNumber found.toNumber)
        spot.set result
        return [result]
    | .count place isUp isBefore =>
      let spot ← spotOf steps place
      let old := (← spot.get).toNumber
      let new := if isUp then old + 1.0 else old - 1.0
      spot.set (.number new)
      return [.number (if isBefore then new else old)]
    | .choice condition first second =>
      if (← value condition).isTrue then return [← value first] else return [← value second]
    | .both first second =>
      if (← value first).isTrue then return [.ofBool (← value second).isTrue]
      else return [.ofBool false]
    | .either first second =>
      if (← value first).isTrue then return [.ofBool true]
      else return [.ofBool (← value second).isTrue]
    | .not inner => return [.ofBool !(← value inner).isTrue]
    | .isIn keys name =>
      let key ← keyOf (← perform steps (.values keys))
      return [.ofBool ((← table name).get? key.1).isSome]
    | .fits inner pattern isInverted =>
      let t ← textOf (← value inner)
      let regex ← regexFor pattern
      return [.ofBool (regex.fitsIn t != isInverted)]
    | .compare comparison first second =>
      let a ← value first
      let b ← value second
      let (isLess, isEqual) := Record.compare (← get).format a b
      return [.ofBool (comparison.holds isLess isEqual)]
    | .join first second =>
      let a ← textOf (← value first)
      let b ← textOf (← value second)
      return [.text (a ++ b)]
    | .calculate operator first second =>
      let a ← value first
      let b ← value second
      return [.number (calculate operator a.toNumber b.toNumber)]
    | .negative inner => return [.number (-(← value inner).toNumber)]
    | .positive inner => return [.number (← value inner).toNumber]
    | .group inner => do
      let values ← perform steps (.values inner)
      match values with
      | [found] => return [found]
      | values => return [.text (← keyOf values).1]
    | .read letter source target? =>
      let name ← textOf (← value source)
      let found? : Option (Option Text) ←
        if letter = 'i' then do
          let found? ← nextRecord manyFiles
          pure (some found?)
        else if letter = 'f' then nextOf name (fileContent name)
        else nextOf name (do return some (← commandOutput name))
      match found? with
      | none => return [.number (-1.0)]
      | some none => return [.number 0.0]
      | some (some t) =>
        match target? with
        | some place =>
          let spot ← spotOf steps place
          spot.set (.ofRead t)
        | none => setRecord t
        return [.number 1.0]
    | .call name arguments =>
      match (← get).program.functions.find? fun function => function.name = name with
      | none => fail ("function " ++ name ++ " never defined")
      | some function =>
        let values ← perform steps (.values arguments)
        let session ← get
        let bind (parameter : Text × Nat) : Text × Local :=
          let fresh := "#".toList ++ Text.ofNat (session.nextTable + parameter.2)
          let value := values[parameter.2]?.getD .missing
          match arguments[parameter.2]? with
          | some (.value (.named other)) =>
            let table :=
              match session.locals.lookup other with
              | some found => found.table
              | none => other
            (parameter.1, { value, table })
          | _ => (parameter.1, { value, table := fresh })
        set { session with
          locals := function.parameters.zipIdx.map bind
          nextTable := session.nextTable + function.parameters.length }
        let result ← inFunction (do
          let _ ← perform steps (.statement function.body))
        modify ({ · with locals := session.locals })
        return [result]
    | .builtin name arguments =>
      if name = "length" then
        match arguments with
        | [] => return [.ofNat (← get).record.length]
        | .value (.named other) :: _ =>
          let entries := (← table other).entries
          if entries.isEmpty then return [.ofNat (← textOf (← valueOf other)).length]
          return [.ofNat entries.length]
        | inner :: _ => return [.ofNat (← textOf (← value inner)).length]
      else if name = "split" then
        match arguments with
        | inner :: .value (.named other) :: separator =>
          let t ← textOf (← value inner)
          let parts ←
            match separator with
            | [] => splitFields ((← get).setting "FS") t
            | separator :: _ =>
              match separator.regex? with
              | some regex => pure (splitByRegex regex t)
              | none => splitFields (← textOf (← value separator)) t
          setTable other (.ofTexts parts)
          return [.ofNat parts.length]
        | _ => fail "split needs a table"
      else if name = "sub" ∨ name = "gsub" then
        match arguments with
        | pattern :: replacement :: target =>
          let regex ← regexFor pattern
          let replacement ← textOf (← value replacement)
          let spot? ←
            match target with
            | [] => pure (some (Spot.field 0))
            | .value place :: _ => some <$> spotOf steps place
            | _ => pure none
          let old ←
            match spot?, target with
            | some spot, _ => do textOf (← spot.get)
            | none, inner :: _ => do textOf (← value inner)
            | none, [] => pure []
          let (new, count) := replaceMatches regex (name = "gsub") replacement old
          match spot? with
          | some spot => if count ≠ 0 then spot.set (.text new)
          | none => pure ()
          return [.ofNat count]
        | _ => return []
      else if name = "match" then
        match arguments with
        | inner :: pattern :: _ =>
          let t ← textOf (← value inner)
          let regex ← regexFor pattern
          let (start, length) : Nat × Int :=
            match regex.find? none t with
            | some found => (found.front.length + 1, found.fitted.length)
            | none => (0, -1)
          modify fun session =>
            (session.withGlobal "RSTART" (.ofNat start)).withGlobal "RLENGTH" (.ofInt length)
          return [.ofNat start]
        | _ => return []
      else
        let values ← perform steps (.values arguments)
        let first := values.headD .missing
        let second := (values.drop 1).headD .missing
        match numberFunction? name with
        | some function => return [.number (function first.toNumber)]
        | none => pure ()
        if name = "substr" then
          let length? := (values.drop 2).head?.map fun value => truncated value.toNumber
          return [.text (portion (← textOf first) (truncated second.toNumber) length?)]
        else if name = "index" then
          return [.ofNat (indexOf (← textOf second) 1 (← textOf first))]
        else if name = "toupper" then return [.text (capitals (← textOf first))]
        else if name = "tolower" then return [.text (Text.lower (← textOf first))]
        else if name = "atan2" then
          return [.number (Float.atan2 first.toNumber second.toNumber)]
        else if name = "sprintf" then
          let held := (← get).held
          modify ({ · with held := [] })
          format name printOut values
          let shown := (← get).held.reverse.flatten
          modify ({ · with held })
          return [.text shown]
        else if name = "system" then
          flush
          return [.ofNat (← runCommand (← textOf first) none)]
        else if name = "close" then
          match ← close (← textOf first) with
          | some status => return [.ofNat status]
          | none => return [.number (-1.0)]
        else if name = "fflush" then
          flush
          return [.number 0.0]
        else return [.number 0.0]
where
  /-- The place with its number or key. -/
  spotOf (steps : Nat) : Place → Doing Spot
    | .named name => return .named name
    | .element table keys => do
      return .element table (← keyOf (← perform steps (.values keys)))
    | .field number => do fieldSpot ((← perform steps (.value number)).headD .missing)

/-- How many steps are taken inside each other at most. -/
def manyLevels : Nat := 1000000

/-- Whether a rule with an index is meant for the record. -/
def Occasion.isHere (index : Nat) : Occasion → Doing Bool
  | .beginning | .ending => return false
  | .always => return true
  | .condition expr => do
    return (← perform manyLevels (.value expr)).any Value.isTrue
  | .range first last => do
    let holds (expr : Expr) : Doing Bool := do
      return (← perform manyLevels (.value expr)).any Value.isTrue
    let isInside := (← get).ranges.contains index
    let begins ← if isInside then pure true else holds first
    if !begins then return false
    let ends ← holds last
    modify fun session =>
      let others := session.ranges.filter (· != index)
      { session with ranges := if ends then others else index :: others }
    return true

def followRule (rule : Rule) : Doing Unit := do
  let body := rule.body?.getD (.print [] false .output)
  let _ ← perform manyLevels (.statement body)

def followRules : (index : Nat) → List Rule → Doing Unit
  | _, [] => return
  | index, rule :: rules => do
    if ← rule.occasion.isHere index then followRule rule
    followRules (index + 1) rules

/-- Follows the rules for each record that is left, of which there are at most this many. -/
def followAll : (most : Nat) → List Rule → Doing Unit
  | 0, _ => return
  | most + 1, rules => do
    match ← nextRecord manyFiles with
    | none => return
    | some record =>
      setRecord record
      let goesOn : Doing Unit := fun session => do
        let (outcome, session) ← followRules 0 rules session
        match outcome with
        | .error .next => return (.ok (), session)
        | .error .nextFile => return (.ok (), { session with rest? := none })
        | outcome => return (outcome, session)
      goesOn
      followAll most rules

/-- Follows the rules of an occasion that has no record. -/
def followEach : List Rule → Doing Unit
  | [] => return
  | rule :: rules => do
    followRule rule
    followEach rules

def Rule.isBeginning (rule : Rule) : Bool :=
  match rule.occasion with
  | .beginning => true
  | _ => false

def Rule.isEnding (rule : Rule) : Bool :=
  match rule.occasion with
  | .ending => true
  | _ => false

/-- Runs something, and says whether the program goes on. -/
def untilExit (act : Doing Unit) : Doing Bool := fun session => do
  let (outcome, session) ← act session
  match outcome with
  | .ok _ => return (.ok true, session)
  | .error .exited => return (.ok false, session)
  | .error leave => return (.error leave, session)

def runRules : Doing Unit := do
  let rules := (← get).program.rules
  let beginning := rules.filter Rule.isBeginning
  let ending := rules.filter Rule.isEnding
  let hasRecords := rules.any fun rule => !rule.isBeginning
  let goesOn ← untilExit (followEach beginning)
  if !hasRecords then return
  if goesOn then
    let _ ← untilExit (followAll 10000000 rules)
  let _ ← untilExit (followEach ending)

/-- The status that a run has after a program has ended. -/
def finish (outcome : Except Leave Unit) : Doing Nat := do
  match outcome with
  | .error (.failed message) =>
    onMachine (Utility.say message)
    modify ({ · with status := 2 })
  | _ => pure ()
  closeAll
  return (← get).status

/-- Runs a program with some variables set and with arguments, and gives the status. -/
def run (runner : Runner) (program : Program) (settings : List (Text × Text))
    (arguments : List Text) : Act Nat := do
  let process ← getProcess
  let text (t : String) : Value := .text t.toList
  let bindings : List (Text × Value) :=
    [("FS", text " "), ("OFS", text " "), ("ORS", text "\n"), ("RS", text "\n"),
      ("SUBSEP", text "\x1c"), ("CONVFMT", text "%.6g"), ("OFMT", text "%.6g"),
      ("NR", .number 0.0), ("FNR", .number 0.0), ("FILENAME", text ""),
      ("ARGC", .ofNat (arguments.length + 1)), ("RSTART", .number 0.0),
      ("RLENGTH", .number (-1.0))]
  let numbered := (process.name :: arguments).zipIdx
  let argv : Table :=
    { entries := numbered.map fun (t, i) => (Text.ofNat i, .ofRead t)
      numbers := (numbered.map fun (_, i) => (i : Int)).reverse }
  let environment : Table :=
    { entries := process.environment.map fun (name, value) => (name, .ofRead value)
      order := process.environment.map Prod.fst
      hasTexts := true }
  let session : Session :=
    { runner, program, bindings, tables := [("ARGV", argv), ("ENVIRON", environment)] }
  let doing : Doing Nat := do
    for (name, value) in settings do
      assignArgument name value
    let guarded : Doing (Except Leave Unit) := fun session => do
      let (outcome, session) ← runRules session
      return (.ok outcome, session)
    finish (← guarded)
  let (outcome, session) ← doing session
  match outcome with
  | .ok status => return status
  | .error _ => return session.status

end Record

end Shell

end SampleHarvest
