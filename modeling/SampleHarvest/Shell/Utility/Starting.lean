import SampleHarvest.Shell.Utility.Simple

/-!
# Utilities that start others

They run a program with arguments that they read, for no more than some time, or just as it is. The
status tells whether the program could be run, and else what became of it.
-/

namespace SampleHarvest

namespace Shell

namespace Utility

/-- How arguments are told apart. -/
structure ArgumentStyle where
  separator? : Option Char
  isByLine : Bool

structure ArgumentDraft where
  lines : List (List Text) := []
  line : List Text := []
  current? : Option Text := none

namespace ArgumentDraft

def add (draft : ArgumentDraft) (c : Char) : ArgumentDraft :=
  { draft with current? := some (c :: draft.current?.getD []) }

/-- The draft with the running argument ended. -/
def close (draft : ArgumentDraft) : ArgumentDraft :=
  match draft.current? with
  | some t => { draft with line := t.reverse :: draft.line, current? := none }
  | none => draft

def closeLine (draft : ArgumentDraft) : ArgumentDraft :=
  let draft := draft.close
  if draft.line.isEmpty then draft
  else { draft with lines := draft.line :: draft.lines, line := [] }

def found (draft : ArgumentDraft) : List (List Text) :=
  (draft.closeLine.lines.reverse).map List.reverse

end ArgumentDraft

/-- Reads arguments with quotes and escapes between blanks; `quote?` is the quote that is open. -/
def readQuoted (isByLine : Bool) : (quote? : Option Char) → ArgumentDraft → Text →
    ArgumentDraft × Option Char
  | none, draft, [] => (draft, none)
  | some quote, draft, [] => ({ draft with current? := none }, some quote)
  | some quote, draft, c :: t =>
    if c = '\n' then ({ draft with current? := none }, some quote)
    else if c = quote then
      readQuoted isByLine none { draft with current? := some (draft.current?.getD []) } t
    else readQuoted isByLine (some quote) (draft.add c) t
  | none, draft, '\\' :: c :: t => readQuoted isByLine none (draft.add c) t
  | none, draft, c :: t =>
    if c = '\n' then readQuoted isByLine none draft.closeLine t
    else if c = '\x27' ∨ c = '\x22' then readQuoted isByLine (some c) draft t
    else if Text.isRawBlank c then
      if isByLine then
        readQuoted isByLine none (if draft.current?.isNone then draft else draft.add c) t
      else readQuoted isByLine none draft.close t
    else readQuoted isByLine none (draft.add c) t

/-- The arguments of each line of a text, and a quote that is not closed. -/
def argumentLines (style : ArgumentStyle) (t : Text) : List (List Text) × Option Char :=
  match style.separator? with
  | some separator =>
    let parts := Text.splitOn separator t
    let parts := if parts.getLast? = some [] then parts.dropLast else parts
    (parts.map fun part => [part], none)
  | none =>
    let (draft, quote?) := readQuoted style.isByLine none {} t
    (draft.found, quote?)

/-- Lists in groups of a size, at most so many groups. -/
def chunks (size : Nat) : (most : Nat) → List α → List (List α)
  | 0, _ => []
  | _, [] => []
  | most + 1, items => items.take size :: chunks size most (items.drop size)

/-- Runs a program in a process of its own that reads nothing, and gives what its end means for the
status, and whether to go on. -/
def runOne (runner : Runner) (words : List Text) : Act (Nat × Bool) := do
  let machine ← get
  let name := words.headD []
  match ← programPath name with
  | .error fault =>
    say (name ++ ": " ++ fault.reason)
    return (if fault = .missing ∨ fault = .notFolder then 127 else 126, false)
  | .ok path =>
    match programAt machine path with
    | .error fault =>
      say (name ++ ": " ++ fault.reason)
      return (if fault = .missing ∨ fault = .notFolder then 127 else 126, false)
    | .ok _ =>
      let input ← addStream .nothing
      let (status, signal?) ← inChild runner do
        setDescriptor 0 (some input)
        let _ ← runner.program path words
      match signal? with
      | some signal =>
        say (name ++ ": terminated by signal " ++ Text.ofNat signal)
        return (125, false)
      | none =>
        if status = 255 then
          say (name ++ ": exited with status 255; aborting")
          return (124, false)
        return (if status = 0 then 0 else 123, true)

/-- Runs programs one after the other, and gives the last status that is no success. -/
def runEach (runner : Runner) (isShown : Bool) : (status : Nat) → List (List Text) → Act Nat
  | status, [] => return status
  | status, words :: others => do
    if isShown then complain (Text.joinWith [' '] words)
    let (found, goesOn) ← runOne runner words
    if !goesOn then return found
    runEach runner isShown (if found = 0 then status else found) others

/-- Runs a program with arguments that are read. -/
def xargs : Utility := fun runner words =>
  withOptions
    { flags := "0rtxpo", valued := "adEInLPs", endsAtOperand := true
      names := [⟨"null", '0', false⟩, ⟨"no-run-if-empty", 'r', false⟩, ⟨"verbose", 't', false⟩,
        ⟨"max-args", 'n', true⟩, ⟨"max-lines", 'L', true⟩, ⟨"delimiter", 'd', true⟩,
        ⟨"arg-file", 'a', true⟩, ⟨"max-procs", 'P', true⟩] }
    words fun given => do
      let mark? := given.value? 'I'
      let separator? : Option Char :=
        if given.has '0' then some '\x00'
        else (given.value? 'd').bind fun t => (unescape .format (t.length + 1) t).1.head?
      let program := if given.operands.isEmpty then ["echo".toList] else given.operands
      match ← readOperand ((given.value? 'a').getD ['-']) with
      | .error fault => abort ("Cannot open input file " ++ quoted ((given.value? 'a').getD []) ++
          ": " ++ fault.reason)
      | .ok content =>
        let (lines, quote?) := argumentLines { separator?, isByLine := mark?.isSome } content
        let stop? := given.value? 'E'
        let arguments := lines.flatten
        let arguments := stop?.elim arguments fun stop => arguments.takeWhile (· ≠ stop)
        let count (letter : Char) : Option Nat := (given.value? letter).bind Text.toNat?
        let calls : List (List Text) :=
          match mark?, count 'L', count 'n' with
          | some mark, _, _ =>
            arguments.map fun argument => program.map (Text.replaceAll mark argument)
          | none, some most, _ =>
            (chunks most (lines.length + 1) lines).map fun part => program ++ part.flatten
          | none, none, some most =>
            (chunks most (arguments.length + 1) arguments).map fun part => program ++ part
          | none, none, none => if arguments.isEmpty then [] else [program ++ arguments]
        let calls :=
          if calls.isEmpty ∧ mark?.isNone ∧ !given.has 'r' then [program] else calls
        let status ← runEach runner (given.has 't') 0 calls
        match quote? with
        | none => return status
        | some quote =>
          let kind : Text := if quote = '\x27' then "single" else "double"
          say ("unmatched " ++ kind ++
            " quote; by default quotes are special to xargs unless you use the -0 option")
          return 1

/-- Runs a program in the place of the process, or says why that is not possible. -/
def become (runner : Runner) (words : List Text) : Act Nat := do
  match ← runNamed runner words with
  | none => return (← getProcess).status
  | some fault =>
    let status := if fault = .missing ∨ fault = .notFolder then 127 else 126
    abort (quoted (words.headD []) ++ ": " ++ fault.reason) status

/-- Runs a program with less weight, which changes nothing. -/
def nice : Utility := fun runner words =>
  withOptions { valued := ['n'], endsAtOperand := true } words (fun given => do
    if given.operands.isEmpty then
      putLine ['0']
      return 0
    become runner given.operands) 125

/-- Runs a program that goes on when nobody listens any more. -/
def nohup : Utility := fun runner words =>
  if words.isEmpty then misuse "missing operand" 125 else become runner words

/-- Runs a program for no more than some time. -/
def timeout : Utility := fun runner words =>
  withOptions
    { flags := ['v'], valued := "ks", endsAtOperand := true
      names := [⟨"kill-after", 'k', true⟩, ⟨"signal", 's', true⟩, ⟨"preserve-status", 'p', false⟩,
        ⟨"foreground", 'f', false⟩, ⟨"verbose", 'v', false⟩] }
    words (fun given => do
      match given.operands with
      | duration :: name :: arguments =>
        match milliseconds? duration with
        | none => misuse ("invalid time interval " ++ quoted duration) 125
        | some limit =>
          match ← programPath name with
          | .error fault =>
            let status := if fault = .missing then 127 else 126
            abort ("failed to run command " ++ quoted name ++ ": " ++ fault.reason) status
          | .ok path =>
            let before ← get
            let finish := before.time + limit
            let isFirst := limit ≠ 0 && before.deadline?.all (finish ≤ ·)
            if isFirst then modify ({ · with deadline? := some finish })
            let (status, signal?) ← inChild runner do
              match ← runner.program path (name :: arguments) with
              | none => return
              | some fault =>
                say ("failed to run command " ++ quoted name ++ ": " ++ fault.reason)
                setStatus (if fault = .missing then 127 else 126)
            let after ← get
            let isLate := isFirst && finish ≤ after.time
            set { after with
              deadline? := before.deadline?
              time := if isLate then finish else after.time
              lastEnd := if isLate then max before.lastEnd finish else after.lastEnd }
            if isLate then
              if (given.value? 's') = some ['K', 'I', 'L', 'L'] ∨ given.value? 's' = some ['9'] then
                setFlow (.killed 9)
              return 124
            match signal? with
            | some signal => return 128 + signal
            | none => return status
      | _ => misuse "missing operand" 125) 125

/-- Prints where programs are. -/
def which : Utility := fun _ names => do
  let mut status := 0
  for name in names.filter fun name => name.head? != some '-' do
    let machine ← get
    match ← programPath name with
    | .ok path =>
      match programAt machine path with
      | .ok _ => putLine path
      | .error _ => status := 1
    | .error _ => status := 1
  return status

end Utility

end Shell

end SampleHarvest
