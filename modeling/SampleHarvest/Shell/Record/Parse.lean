import SampleHarvest.Shell.Record.Syntax
import SampleHarvest.Shell.Record.Token

/-!
# Record programs as texts

Expressions have levels, from assignments down to single values; an expression of a level is made of
expressions of the next one. Where something is printed, a sign for more than is one for a file,
unless it stands in parentheses.
-/

namespace SampleHarvest

namespace Shell

namespace Record

/-- What is left of a program. -/
structure Source where
  rest : List (Token × Nat)
  lastLine : Nat
  braces : Nat := 0
  parentheses : Nat := 0
  loops : Nat := 0
  isInFunction : Bool := false
  hasNoRecord : Bool := false
  calls : List (Text × Nat × Nat) := []

/-- Reads something from a program; it is refused with complaints. -/
abbrev Reader := StateT Source (Except (List Text))

namespace Reader

def ahead? : Reader (Option Token) := do return (← get).rest.head?.map Prod.fst

def line : Reader Nat := do
  let source ← get
  return (source.rest.head?.map Prod.snd).getD source.lastLine

/-- Refuses a program with a complaint about a line. -/
def refuse (line : Nat) (message : Text) : Reader α := StateT.lift (.error [complaint line message])

/-- Refuses the next word. -/
def unexpected : Reader α := do
  let source ← get
  let line ← line
  let isOver := source.rest.all fun entry =>
    match entry.1 with
    | .lineEnd => true
    | _ => false
  let missingBrace : List Text :=
    if isOver ∧ source.braces ≠ 0 then
      [complaint (source.lastLine + 1) "missing \x7d near end of file"]
    else []
  match ← ahead? with
  | none | some .lineEnd =>
    if source.parentheses ≠ 0 then
      StateT.lift (.error (complaint line "missing ) near end of line" :: missingBrace))
    else if missingBrace.isEmpty then refuse line "syntax error at or near end of line"
    else StateT.lift (.error missingBrace)
  | some (.sign t) =>
    if t = ")" ∧ source.parentheses = 0 then refuse line "extra ')'"
    else if t = "\x7d" ∧ source.braces = 0 then refuse line "extra '\x7d'"
    else refuse line ("syntax error at or near " ++ t)
  | some token => refuse line ("syntax error at or near " ++ token.display)

def skip : Reader Unit := modify fun source => { source with rest := source.rest.drop 1 }

def isAt (sign : Text) : Reader Bool := do
  match ← ahead? with
  | some (.sign t) => return t = sign
  | _ => return false

def isAtWord (word : Text) : Reader Bool := do
  match ← ahead? with
  | some (.word t) => return t = word
  | _ => return false

def expect (sign : Text) : Reader Unit := do
  if ← isAt sign then
    modify fun source =>
      { source with
        rest := source.rest.drop 1
        braces :=
          if sign = "\x7b" then source.braces + 1
          else if sign = "\x7d" then source.braces - 1
          else source.braces
        parentheses :=
          if sign = "(" then source.parentheses + 1
          else if sign = ")" then source.parentheses - 1
          else source.parentheses }
  else unexpected

def skipLines : Reader Unit :=
  modify fun source =>
    { source with
      rest := source.rest.dropWhile fun entry =>
        match entry.1 with
        | .lineEnd => true
        | _ => false }

/-- Reads line ends and semicolons. -/
def skipEnds : Reader Unit :=
  modify fun source =>
    { source with
      rest := source.rest.dropWhile fun entry =>
        match entry.1 with
        | .lineEnd => true
        | .sign t => t = ";"
        | _ => false }

def name : Reader Text := do
  match ← ahead? with
  | some (.name t) =>
    skip
    return t
  | _ => unexpected

/-- Reads the end of a statement. -/
def finish : Reader Unit := do
  match ← ahead? with
  | none => return
  | some .lineEnd => skipLines
  | some (.sign t) =>
    if t = ";" then
      skip
      skipLines
    else if t = "\x7d" then return
    else unexpected
  | _ => unexpected

end Reader

open Reader

def assignment? (sign : Text) : Option (Option Operator) :=
  if sign = "=" then some none
  else if sign = "+=" then some (some .add)
  else if sign = "-=" then some (some .subtract)
  else if sign = "*=" then some (some .multiply)
  else if sign = "/=" then some (some .divide)
  else if sign = "%=" then some (some .modulo)
  else if sign = "^=" then some (some .power)
  else none

def comparison? (sign : Text) : Option Comparison :=
  if sign = "<" then some .less
  else if sign = "<=" then some .atMost
  else if sign = "==" then some .equal
  else if sign = "!=" then some .unequal
  else if sign = ">" then some .more
  else if sign = ">=" then some .atLeast
  else none

def operator? (level : Nat) (sign : Text) : Option Operator :=
  if level = 8 then
    if sign = "+" then some .add else if sign = "-" then some .subtract else none
  else if sign = "*" then some .multiply
  else if sign = "/" then some .divide
  else if sign = "%" then some .modulo
  else none

/-- Whether another text can begin with a word, right behind one. -/
def beginsText : Token → Bool
  | .number _ _ | .text _ | .name _ | .call _ | .builtin _ => true
  | .sign t => t = "$" || t = "(" || t = "!" || t = "++" || t = "--"
  | _ => false

/-- How an expression is read. -/
structure Mode where
  isPrinted : Bool := false
  hasNoKeys : Bool := false

def place? : Expr → Option Place
  | .value place => some place
  | _ => none

/-- What is read. -/
inductive Goal where
  | level (n : Nat)
  | behind (n : Nat) (first : Expr)
  | list (closing : Text)

/-- Reads expressions: one, or a list of them. -/
def readExpr : (steps : Nat) → Mode → Goal → Reader (List Expr)
  | 0, _, _ => unexpected
  | steps + 1, _, .list closing => do
    skipLines
    if ← isAt closing then
      expect closing
      return []
    let first ← readExpr steps {} (.level 0)
    skipLines
    if ← isAt "," then
      skip
      skipLines
      if ← isAt closing then unexpected
      return first ++ (← readExpr steps {} (.list closing))
    expect closing
    return first
  | steps + 1, mode, .behind n first => do
    let read (level : Nat) : Reader Expr := do
      match ← readExpr steps mode (.level level) with
      | [found] => return found
      | _ => unexpected
    let again (found : Expr) : Reader (List Expr) := readExpr steps mode (.behind n found)
    match n, ← ahead? with
    | 2, some (.sign t) =>
      if t = "||" then
        skip
        skipLines
        again (.either first (← read 3))
      else return [first]
    | 3, some (.sign t) =>
      if t = "&&" then
        skip
        skipLines
        again (.both first (← read 4))
      else return [first]
    | 4, some (.word t) =>
      if t = "in" ∧ !mode.hasNoKeys then
        skip
        let table ← name
        let keys : List Expr :=
          match first with
          | .group keys => keys
          | key => [key]
        again (.isIn keys table)
      else return [first]
    | 5, some (.sign t) =>
      if t = "~" ∨ t = "!~" then
        skip
        again (.fits first (← read 6) (t = "!~"))
      else return [first]
    | 6, some (.sign t) =>
      if t = "|" then
        let isRead : Bool :=
          match (← get).rest.drop 1 with
          | (.word t, _) :: _ => t = "getline"
          | _ => false
        if !isRead then return [first]
        skip
        skip
        let target? ← readTarget steps mode
        again (.read 'c' first target?)
      else if t = ">" ∧ mode.isPrinted then return [first]
      else
        match comparison? t with
        | none => return [first]
        | some comparison =>
          skip
          again (.compare comparison first (← read 7))
    | 7, some token =>
      if beginsText token then again (.join first (← read 8)) else return [first]
    | 8, some (.sign t) | 9, some (.sign t) =>
      match operator? n t with
      | none => return [first]
      | some operator =>
        skip
        again (.calculate operator first (← read (n + 1)))
    | _, _ => return [first]
  | steps + 1, mode, .level n => do
    let read (level : Nat) : Reader Expr := do
      match ← readExpr steps mode (.level level) with
      | [found] => return found
      | _ => unexpected
    if n = 0 then
      let first ← read 1
      match ← ahead?, place? first with
      | some (.sign t), some place =>
        match assignment? t with
        | some operator? =>
          skip
          skipLines
          return [.assign place operator? (← read 0)]
        | none => return [first]
      | _, _ => return [first]
    else if n = 1 then
      let condition ← read 2
      if ← isAt "?" then
        skip
        skipLines
        let first ← read 0
        skipLines
        unless ← isAt ":" do unexpected
        skip
        skipLines
        return [.choice condition first (← read 0)]
      return [condition]
    else if n < 10 then
      let first ← read (n + 1)
      readExpr steps mode (.behind n first)
    else if n = 10 then
      match ← ahead? with
      | some (.sign t) =>
        if t = "-" then
          skip
          return [.negative (← read 10)]
        else if t = "+" then
          skip
          return [.positive (← read 10)]
        else if t = "!" then
          skip
          return [.not (← read 10)]
        else return [← read 11]
      | _ => return [← read 11]
    else if n = 11 then
      let base ← read 12
      if ← isAt "^" then
        skip
        return [.calculate .power base (← read 10)]
      return [base]
    else if n = 12 then
      match ← ahead? with
      | some (.sign t) =>
        if t = "++" ∨ t = "--" then
          skip
          match place? (← read 13) with
          | some place => return [.count place (t = "++") true]
          | none => unexpected
      | _ => pure ()
      let found ← read 13
      match ← ahead?, place? found with
      | some (.sign t), some place =>
        if t = "++" ∨ t = "--" then
          skip
          return [.count place (t = "++") false]
        return [found]
      | _, _ => return [found]
    else
      match ← ahead? with
      | some (.number x _) =>
        skip
        return [.number x]
      | some (.text t) =>
        skip
        return [.text t]
      | some (.pattern source) =>
        match regexOf source with
        | .ok regex =>
          skip
          return [.pattern regex]
        | .error message => refuse (← line) message
      | some (.name t) =>
        skip
        if ← isAt "[" then
          expect "["
          return [.value (.element t (← readExpr steps {} (.list "]")))]
        return [.value (.named t)]
      | some (.call t) =>
        let line ← line
        skip
        expect "("
        let arguments ← readExpr steps {} (.list ")")
        modify fun source => { source with calls := (t, arguments.length, line) :: source.calls }
        return [.call t arguments]
      | some (.builtin t) =>
        let line ← line
        skip
        let isCalled ← isAt "("
        if !isCalled ∧ t ≠ "length" then unexpected
        let arguments ←
          if isCalled then
            expect "("
            readExpr steps {} (.list ")")
          else pure []
        let (least, most) := (builtins.lookup t).getD (0, 0)
        if arguments.length < least ∨ most < arguments.length then
          refuse line ("wrong number of arguments in call to " ++ t)
        return [.builtin t arguments]
      | some (.word t) =>
        if t ≠ "getline" then unexpected
        skip
        let target? ← readTarget steps mode
        if ← isAt "<" then
          skip
          return [.read 'f' (← read 12) target?]
        return [.read 'i' (.text []) target?]
      | some (.sign t) =>
        if t = "$" then
          skip
          let isCount := (← isAt "++") || (← isAt "--")
          let isSigned := (← isAt "-") || (← isAt "+") || (← isAt "!")
          return [.value (.field (← read (if isSigned then 10 else if isCount then 12 else 13)))]
        else if t = "(" then
          expect "("
          match ← readExpr steps {} (.list ")") with
          | [] => unexpected
          | found => return [.group found]
        else unexpected
      | _ => unexpected
where
  /-- Reads the place that a record is read to, if there is one. -/
  readTarget (steps : Nat) (mode : Mode) : Reader (Option Place) := do
    match ← ahead? with
    | some (.name _) =>
      match ← readExpr steps mode (.level 13) with
      | [found] => return place? found
      | _ => unexpected
    | some (.sign t) =>
      if t = "$" then
        match ← readExpr steps mode (.level 13) with
        | [found] => return place? found
        | _ => unexpected
      else return none
    | _ => return none

/-- How many steps are taken inside each other at most. -/
def manySteps : Reader Nat := do return 20 * (← get).rest.length + 40

def expression (mode : Mode) : Reader Expr := do
  match ← readExpr (← manySteps) mode (.level 0) with
  | [found] => return found
  | _ => unexpected

def condition : Reader Expr := do
  expect "("
  let found ← expression {}
  expect ")"
  skipLines
  return found

def printed : (most : Nat) → Reader (List Expr)
  | 0 => return []
  | most + 1 => do
    match ← ahead? with
    | none | some .lineEnd => return []
    | some (.sign t) =>
      if t = ";" ∨ t = "\x7d" ∨ t = ">" ∨ t = ">>" ∨ t = "|" then return []
    | _ => pure ()
    let first ← expression { isPrinted := true }
    if ← isAt "," then
      skip
      skipLines
      match ← printed most with
      | [] => unexpected
      | others => return first :: others
    return [first]

/-- Reads where something is printed. -/
def target : Reader Target := do
  let file : Reader Expr := do
    skip
    match ← readExpr (← manySteps) { isPrinted := true } (.level 7) with
    | [found] => return found
    | _ => unexpected
  if ← isAt ">" then return .file (← file) false
  else if ← isAt ">>" then return .file (← file) true
  else if ← isAt "|" then return .command (← file)
  else return .output

/-- Reads a statement that fits into the head of a loop; `isWhole` tells whether it ends there. -/
def simpleStatement : Reader Statement := do
  match ← ahead? with
  | some (.word t) =>
    let hasFormat : Bool := t = "printf"
    if t = "print" ∨ hasFormat then
      let line ← line
      skip
      let arguments ← printed ((← get).rest.length + 1)
      let arguments : List Expr :=
        match arguments with
        | [.group inner] => inner
        | arguments => arguments
      if hasFormat ∧ arguments.isEmpty then refuse line "no arguments in call to printf"
      return .print arguments hasFormat (← target)
    else if t = "delete" then
      skip
      let table ← name
      if ← isAt "[" then
        expect "["
        return .delete table (← readExpr (← manySteps) {} (.list "]"))
      return .delete table []
    else return .expression (← expression {})
  | _ => return .expression (← expression {})

/-- Whether a statement ends at the next word. -/
def isAtEnd : Reader Bool := do
  match ← ahead? with
  | none | some .lineEnd => return true
  | some (.sign t) => return t = ";" || t = "\x7d"
  | _ => return false

/-- Reads something inside a loop. -/
def inLoop (read : Reader α) : Reader α := do
  modify fun source => { source with loops := source.loops + 1 }
  let found ← read
  modify fun source => { source with loops := source.loops - 1 }
  return found

mutual

/-- Reads a statement, with at most this many steps inside each other. -/
def statement : (steps : Nat) → Reader Statement
  | 0 => unexpected
  | steps + 1 => do
    let line ← line
    match ← ahead? with
    | some (.sign t) =>
      if t = "\x7b" then
        expect "\x7b"
        let found ← statements steps
        expect "\x7d"
        skipLines
        return .block found
      else if t = ";" then
        skip
        skipLines
        return .block []
      else if t = "\x7d" then return .block []
      else
        let found ← simpleStatement
        finish
        return found
    | some (.word t) =>
      if t = "if" then
        skip
        let condition ← condition
        let first ← statement steps
        let before ← get
        skipEnds
        if ← isAtWord "else" then
          skip
          skipLines
          return .condition condition first (some (← statement steps))
        set before
        return .condition condition first none
      else if t = "while" then
        skip
        let condition ← condition
        return .whileTrue condition (← inLoop (statement steps))
      else if t = "do" then
        skip
        skipLines
        let body ← inLoop (statement steps)
        skipEnds
        unless ← isAtWord "while" do unexpected
        skip
        expect "("
        let condition ← expression {}
        expect ")"
        finish
        return .doWhile body condition
      else if t = "for" then
        skip
        expect "("
        match (← get).rest with
        | (.name key, _) :: (.word word, _) :: (.name table, _) :: (.sign sign, _) :: _ =>
          if word = "in" ∧ sign = ")" then
            skip
            skip
            skip
            expect ")"
            skipLines
            return .forKeys (.named key) table (← inLoop (statement steps))
        | _ => pure ()
        let first? ← if ← isAt ";" then pure none else some <$> simpleStatement
        expect ";"
        skipLines
        let condition? ← if ← isAt ";" then pure none else some <$> expression {}
        expect ";"
        skipLines
        let step? ← if ← isAt ")" then pure none else some <$> simpleStatement
        expect ")"
        skipLines
        return .loop first? condition? step? (← inLoop (statement steps))
      else
        let found ←
          if t = "next" ∨ t = "nextfile" then
            if (← get).hasNoRecord then refuse line ("improper use of " ++ t)
            skip
            pure (if t = "next" then Statement.next else .nextFile)
          else if t = "exit" then
            skip
            if ← isAtEnd then pure (Statement.leave none)
            else Statement.leave <$> some <$> expression {}
          else if t = "return" then
            unless (← get).isInFunction do refuse line "return outside function body"
            skip
            if ← isAtEnd then pure (Statement.giveBack none)
            else Statement.giveBack <$> some <$> expression {}
          else if t = "break" ∨ t = "continue" then
            if (← get).loops = 0 then refuse line (t ++ " statement outside of loop")
            skip
            pure (if t = "break" then Statement.breakLoop else .nextRound)
          else simpleStatement
        finish
        return found
    | _ =>
      let found ← simpleStatement
      finish
      return found

/-- Reads statements up to a closing brace, with at most this many steps inside each other. -/
def statements : (steps : Nat) → Reader (List Statement)
  | 0 => unexpected
  | steps + 1 => do
    skipEnds
    if ← isAt "\x7d" then return []
    if (← ahead?).isNone then unexpected
    let first ← statement steps
    return first :: (← statements steps)

end

def body : Reader Statement := do
  expect "\x7b"
  let found ← statements ((← get).rest.length + 2)
  expect "\x7d"
  return .block found

/-- Reads the names of parameters, at most this many. -/
def parameters : (most : Nat) → Reader (List Text)
  | 0 => unexpected
  | most + 1 => do
    if ← isAt ")" then
      expect ")"
      return []
    let first ← name
    if ← isAt "," then
      skip
      skipLines
      return first :: (← parameters most)
    expect ")"
    return [first]

/-- Reads the end of a rule without a statement. -/
def finishRule : Reader Unit := do
  match ← ahead? with
  | none => return
  | some .lineEnd => skipEnds
  | some (.sign t) => if t = ";" then skipEnds else unexpected
  | _ => unexpected

/-- Reads a rule or a function, and adds it to a program. -/
def item (program : Program) : Reader Program := do
  let rule (occasion : Occasion) (body? : Option Statement) : Reader Program :=
    return { program with rules := program.rules ++ [⟨occasion, body?⟩] }
  match ← ahead? with
  | some (.word t) =>
    if t = "BEGIN" ∨ t = "END" then
      skip
      modify ({ · with hasNoRecord := true })
      let body ← body
      modify ({ · with hasNoRecord := false })
      return ← rule (if t = "BEGIN" then .beginning else .ending) (some body)
    else if t = "function" then
      skip
      let line ← line
      let name ←
        match ← ahead? with
        | some (.name t) | some (.call t) =>
          skip
          pure t
        | _ => unexpected
      if program.functions.any fun function => function.name = name then
        refuse line ("redefinition of " ++ name)
      expect "("
      let parameters ← parameters ((← get).rest.length + 1)
      skipLines
      modify ({ · with isInFunction := true })
      let body ← body
      modify ({ · with isInFunction := false })
      return { program with functions := program.functions ++ [⟨name, parameters, body⟩] }
    else pure ()
  | some (.sign t) =>
    if t = "\x7b" then
      let body ← body
      return ← rule .always (some body)
  | _ => pure ()
  let first ← expression {}
  let occasion ←
    if ← isAt "," then
      skip
      skipLines
      pure (.range first (← expression {}))
    else pure (.condition first)
  if ← isAt "\x7b" then
    let body ← body
    rule occasion (some body)
  else
    finishRule
    rule occasion none

/-- Reads the rules and functions of a program, at most this many. -/
def items : (most : Nat) → Program → Reader Program
  | 0, program => return program
  | most + 1, program => do
    skipLines
    if (← ahead?).isNone then return program
    let program ← item program
    skipLines
    if ← isAt ";" then skipEnds
    items most program

/-- What is wrong with the calls of functions. -/
def callComplaints (program : Program) (lastLine : Nat) : List (Text × Nat × Nat) → List Text
  | [] => []
  | (name, count, line) :: calls =>
    (match program.functions.find? fun function => function.name = name with
      | none => [complaint (lastLine + 1) ("function " ++ name ++ " never defined")]
      | some function =>
        if function.parameters.length < count then
          [complaint line ("too many arguments in call to " ++ name)]
        else []) ++
      callComplaints program lastLine calls

def parse (source : Text) : Except (List Text) Program := do
  let lastLine := (source.filter (· == '\n')).length + 1
  let tokens ←
    match scan (source.length + 1) 1 false source with
    | .ok tokens => pure tokens
    | .error message => throw [message]
  let (program, behind) ← (items (tokens.length + 1) {}).run { rest := tokens, lastLine }
  match callComplaints program lastLine behind.calls.reverse with
  | [] => return program
  | complaints => throw complaints

end Record

end Shell

end SampleHarvest
