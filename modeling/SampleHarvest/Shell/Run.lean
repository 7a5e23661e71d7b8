import SampleHarvest.Shell.Builtin.Check
import SampleHarvest.Shell.Builtin.Flow
import SampleHarvest.Shell.Builtin.Folder
import SampleHarvest.Shell.Builtin.Variables
import SampleHarvest.Shell.Program
import SampleHarvest.Shell.Redirection

/-!
# Running commands

A command is run by running its parts. Its words are put in first, then its redirections are carried
out, then its assignments; only then is it known what is run.

A failure ends the script where that is set, unless something looks at it: the test of a loop or a
condition, a negation, or another command that depends on it.
-/

namespace SampleHarvest

namespace Shell

/-- The commands of the shell that run programs or nothing. -/
def succeeding : Builtin := fun _ _ => return 0

/-- The command of the shell that never succeeds. -/
def failing : Builtin := fun _ _ => return 1

/-- Tells what a name stands for, as far as letters ask for that. -/
def lookingUp : Builtin := fun _ words =>
  Builtin.withLetters ['p', 'v', 'V'] [] words fun found words => do
    let isShort := found.any fun entry => entry.1 == 'v'
    let isLong := found.any fun entry => entry.1 == 'V'
    match words with
    | name :: _ =>
      let isFound ←
        if isLong then Builtin.describe name
        else if isShort then Builtin.identify name
        else pure true
      return if isFound then 0 else 127
    | [] => return 0

/-- Runs a file as a script. -/
def sourcing : Builtin := fun runner words => do
  match words with
  | [] => return 0
  | name :: _ =>
    let machine ← get
    let folders := (machine.process.value? "PATH").getD usualFolders
    let paths :=
      if name.any (· == '/') then [name]
      else (Text.splitOn ':' folders).map fun folder =>
        if folder.isEmpty then name else folder ++ ['/'] ++ name
    let isFile (path : Text) : Bool :=
      match machine.disk.node (Text.ofRaw path) with
      | .ok (.file _) => true
      | _ => false
    match if name.any (· == '/') then some name else paths.find? isFile with
    | none => Builtin.refuse (name ++ ": not found")
    | some path =>
      match ← readPath path with
      | .error fault =>
        Builtin.refuse ("cannot open " ++ path ++ ": " ++ openingReason .reading fault)
      | .ok source =>
        modifyProcess ({ · with running? := some path })
        let isRun ← runner.script { isRead := true } source
        modifyProcess fun process =>
          if process.flow? = some .returned then { process with flow? := none } else process
        let process ← getProcess
        return if isRun then process.status else 0

/-- Runs a program in the place of the shell. -/
def replacing : Builtin := fun runner words => do
  match words with
  | [] => return 0
  | name :: _ =>
    match ← runNamed runner words with
    | none => return (← getProcess).status
    | some fault =>
      warn (name ++ ": " ++ runningReason fault)
      setStatus (if runningReason fault = "not found" then 127 else 126)
      modifyProcess ({ · with traps := [] })
      setFlow .exited
      return (← getProcess).status

/-- The first half of the commands of the shell. -/
def controlCommands : List (Text × Builtin) :=
  [(":", succeeding), ("true", succeeding), ("false", failing), (".", sourcing),
    ("exec", replacing), ("command", lookingUp), ("break", Builtin.leaveLoops .broken),
    ("continue", Builtin.leaveLoops .continued), ("return", Builtin.returning),
    ("exit", Builtin.exit), ("eval", Builtin.eval), ("trap", Builtin.trap),
    ("kill", Builtin.kill), ("wait", Builtin.wait), ("jobs", Builtin.jobs),
    ("fg", Builtin.withoutJob), ("bg", Builtin.withoutJob), ("times", Builtin.times)]

/-- The second half of the commands of the shell. -/
def stateCommands : List (Text × Builtin) :=
  [("export", Builtin.exporting), ("readonly", Builtin.fixing), ("local", Builtin.localizing),
    ("unset", Builtin.unset), ("set", Builtin.setting), ("shift", Builtin.shift),
    ("read", Builtin.reading), ("getopts", Builtin.getopts), ("type", Builtin.typing),
    ("hash", Builtin.hash), ("alias", Builtin.aliasing), ("unalias", Builtin.unaliasing),
    ("cd", Builtin.cd), ("chdir", Builtin.cd), ("pwd", Builtin.pwd), ("umask", Builtin.umask),
    ("ulimit", Builtin.ulimit), ("echo", Builtin.echo), ("printf", Builtin.printf),
    ("test", Builtin.check), ("[", Builtin.bracket)]

/-- The command of the shell with a name. -/
def builtin? (name : Text) : Option Builtin :=
  controlCommands.lookup name <|> stateCommands.lookup name

/-- Whether the arguments of a command are looked at for assignments. -/
def declares (fields : List Text) : Bool :=
  let name? := (fields.dropWhile fun field => field == "command".toList).head?
  let names : List Text := ["alias", "export", "readonly", "local"]
  name?.any names.contains

/-- The texts that the words of a command stand for, behind those of its first words. -/
def expandCommand (runner : Runner) : List Text → List Word → Act (List Text)
  | fields, [] => return fields
  | fields, word :: words => do
    let found : List Text ←
      if declares fields ∧ (assignment? word).isSome then pure [← expandText runner word true]
      else expandWord runner word
    if ← isStopped then return fields
    expandCommand runner (fields ++ found) words

/-- The words of a command that is given without the commands of the script, or nothing if there is
something to be looked up. -/
def withoutCommand? : List Text → Option (List Text)
  | [] => none
  | word :: words =>
    match word with
    | ['-', '-'] => if words.isEmpty then none else some words
    | '-' :: letter :: letters =>
      if (letter :: letters).all (· == 'p') then withoutCommand? words else none
    | _ => some (word :: words)

/-- A command with all words put in. -/
structure Call where
  words : List Text
  withFunctions : Bool := true

/-- The call that is meant by words. -/
def Call.of : (most : Nat) → Call → Call
  | 0, call => call
  | most + 1, call =>
    match call.words with
    | word :: words =>
      if word = "command" then
        match withoutCommand? words with
        | some words => Call.of most { words, withFunctions := false }
        | none => call
      else call
    | [] => call

/-- Gives variables their values for a command. What is to be put back is kept if the values are for
that command only. -/
def assignFor (runner : Runner) (isLocal isExported : Bool) :
    List (Text × Word) → Act (List (Text × Option Variable) × List Text)
  | [] => return ([], [])
  | (name, word) :: assignments => do
    let value ← expandText runner word true
    if ← isStopped then return ([], [])
    let old? := (← getProcess).bindings.lookup name
    assign name value
    if ← isStopped then return ([], [])
    if isLocal ∨ isExported then
      modifyProcess fun process =>
        match process.bindings.lookup name with
        | some found => process.setVariable name { found with isExported := true }
        | none => process
    let (others, shown) ← assignFor runner isLocal isExported assignments
    return ((name, old?) :: others, (name ++ ['='] ++ value) :: shown)

def putBackVariables : List (Text × Option Variable) → Act Unit
  | [] => return
  | (name, old?) :: others => do
    putBackVariables others
    modifyProcess fun process =>
      match old? with
      | some old => process.setVariable name old
      | none =>
        { process with bindings := process.bindings.filter fun entry => entry.1 != name }

/-- Shows a command that is run. -/
def trace (errors? : Option Nat) (shown : List Text) : Act Unit := do
  let process ← getProcess
  let lead := (process.value? "PS4").getD []
  match errors? with
  | some number => writeStream number (lead ++ Text.joinWith [' '] shown ++ ['\n'])
  | none => return

def callFunction (runner : Runner) (mode : RunMode) (body : Command) (arguments : List Text) :
    Act Unit := do
  let before ← getProcess
  modifyProcess fun process =>
    { process with
      arguments
      calls := process.calls + 1
      loops := 0
      hidden := []
      nextLetter := (1, 0) }
  runner.command { isTested := mode.isTested } body
  putBackVariables (← getProcess).hidden
  modifyProcess fun process =>
    { process with
      arguments := before.arguments
      calls := before.calls
      loops := before.loops
      hidden := before.hidden
      nextLetter := before.nextLetter
      flow? := if process.flow? = some .returned then none else process.flow? }

def callBuiltin (runner : Runner) (mode : RunMode) (isFatal : Bool) (builtin : Builtin)
    (words : List Text) : Act Unit := do
  let before ← getProcess
  let isEval := words.head? == some "eval".toList
  let inner := if isEval then { runner with script := fun _ => runner.script mode } else runner
  modifyProcess ({ · with running? := words.head? })
  let status ← builtin inner (words.drop 1)
  modifyProcess fun process =>
    let process := { process with running? := before.running? }
    match process.flow? with
    | some .failed => if isFatal then process else { process with flow? := none, status }
    | some .exited => process
    | some (.killed _) => process
    | _ => { process with status }

/-- Runs a program in a process of its own, or in the place of the shell if nothing is to follow. -/
def callProgram (runner : Runner) (mode : RunMode) (path : Text) (words : List Text) :
    Act Unit := do
  let act : Act Unit := do
    match ← runner.program path words with
    | none => return
    | some fault =>
      warn (words.headD [] ++ ": " ++ runningReason fault)
      setStatus (if runningReason fault = "not found" then 127 else 126)
  let process ← getProcess
  if mode.isLast ∧ process.traps.all fun trap => trap.2.isEmpty then
    runJobs runner
    act
    if (← getProcess).flow?.isNone then setFlow .exited
  else
    if words.head? = some "sleep".toList then runJobs runner
    let (status, signal?) ← inChild runner act
    reportSignal signal?
    setStatus status

/-- Runs what was set for the signals that have come. -/
def runPending (runner : Runner) : Act Unit := do
  let process ← getProcess
  if process.pending.isEmpty ∨ process.flow?.isSome then return
  modifyProcess ({ · with pending := [] })
  for event in process.pending do
    match process.trap? event with
    | some source =>
      let _ ← runner.script {} source
      modifyProcess fun after =>
        if after.flow?.isNone then { after with status := process.status } else after
    | none => pure ()

/-- Ends the process after a failure that nothing looks at, where that is set. -/
def checkStatus (mode : RunMode) : Act Unit := do
  let process ← getProcess
  if process.has 'e' ∧ process.status ≠ 0 ∧ !mode.isTested ∧ process.flow?.isNone then
    setFlow .exited

/-- Runs a call, for which redirections and assignments have been done. -/
def runCall (runner : Runner) (mode : RunMode) (call : Call) (isFatal : Bool) : Act Unit := do
  match call.words with
  | [] => setStatus (← getProcess).innerStatus
  | name :: arguments =>
    match ← meaningOf call.withFunctions name with
    | .function body => callFunction runner mode body arguments
    | .builtin =>
      match builtin? name with
      | some builtin => callBuiltin runner { isTested := mode.isTested } isFatal builtin call.words
      | none => setStatus 127
    | .program path => callProgram runner mode path call.words
    | .nothing fault =>
      warn (name ++ ": " ++ runningReason fault)
      setStatus 127

def runSimple (runner : Runner) (mode : RunMode) (line : Nat) (assignments : List (Text × Word))
    (words : List Word) (redirections : List Redirection) : Act Unit := do
  modifyProcess ({ · with line, innerStatus := 0 })
  let fields ← expandCommand runner [] words
  if ← isStopped then return
  let call := Call.of fields.length { words := fields }
  let name := call.words.headD []
  let isFatal := call.withFunctions && isSpecialCommand name && !fields.isEmpty
  let replaces := name == "exec".toList
  let before ← get
  let isDone ← redirect runner redirections
  let restore : Act Unit := do
    unless replaces do
      modifyProcess ({ · with descriptors := before.process.descriptors })
      unless redirections.isEmpty do dropStreams before.streams.length
  if ← isStopped then return ← restore
  if !isDone then
    setStatus 2
    if isFatal then setFlow .failed
    restore
    return
  let isLocal := !fields.isEmpty && !isFatal
  let isExported := replaces && 1 < call.words.length
  let (old, shown) ← assignFor runner isLocal isExported assignments
  unless ← isStopped do
    if (← getProcess).has 'x' ∧ !(shown.isEmpty ∧ fields.isEmpty) then
      trace (before.process.descriptors.lookup 2) (shown ++ fields)
    runCall runner mode call isFatal
  if isLocal then putBackVariables old
  restore

/-- Whether the innermost loop is left, of those that are to be left or to go on. -/
def leavesLoop : Act Bool := do
  match (← getProcess).flow? with
  | some (.broken loops) =>
    let flow? := if loops ≤ 1 then none else some (Flow.broken (loops - 1))
    modifyProcess ({ · with flow? })
    return true
  | some (.continued loops) =>
    let flow? := if loops ≤ 1 then none else some (Flow.continued (loops - 1))
    modifyProcess ({ · with flow? })
    return flow?.isSome
  | _ => isStopped

/-- Runs a test and a body again and again, at most this often. The status is that of the last time
that the body was run. -/
def repeatLoop (wanted : Bool) (test body : Act Unit) : (rounds : Nat) → (status : Nat) → Act Unit
  | 0, _ => waitUntil forever
  | rounds + 1, status => do
    test
    if (← getProcess).flow?.isSome then
      if ← leavesLoop then return
      repeatLoop wanted test body rounds status
    else if ← isStopped then return
    else if ((← getProcess).status == 0) != wanted then setStatus status
    else
      body
      if ← leavesLoop then return
      repeatLoop wanted test body rounds (← getProcess).status

/-- How often a loop is gone through before it counts as having no end. -/
def manyRounds : Nat := 20000

def eachValue (name : Text) (body : Act Unit) : List Text → Act Unit
  | [] => return
  | value :: values => do
    assign name value
    if ← isStopped then return
    body
    if ← leavesLoop then return
    eachValue name body values

/-- Runs something as the body of a loop. -/
def insideLoop (act : Act Unit) : Act Unit := do
  let loops := (← getProcess).loops
  modifyProcess ({ · with loops := loops + 1 })
  act
  modifyProcess ({ · with loops })

def fitsAny (runner : Runner) (t : Text) : List Word → Act Bool
  | [] => return false
  | word :: words => do
    let pattern ← expandPattern runner word
    if ← isStopped then return false
    if fits pattern t then return true
    fitsAny runner t words

/-- Runs commands in processes of their own, of which each one reads what the one before has
printed. -/
def runPiped (runner : Runner) (input? : Option Nat) : List (Act Unit) → Act Unit
  | [] => return
  | act :: acts => do
    let output? ← if acts.isEmpty then pure none else some <$> addStream (.pipe [])
    let (status, signal?) ← inChild runner do
      if input?.isSome then setDescriptor 0 input?
      if output?.isSome then setDescriptor 1 output?
      act
    setStatus status
    runPiped runner output? acts
    reportSignal signal?

/-- Runs something in a process that is split off, or in the process itself if nothing is to
follow. -/
def runSplit (runner : Runner) (mode : RunMode) (act : Act Unit) : Act Unit := do
  let process ← getProcess
  if mode.isLast ∧ process.traps.all fun trap => trap.2.isEmpty then
    act
    if (← getProcess).flow?.isNone then setFlow .exited
  else
    let (status, signal?) ← inChild runner act
    reportSignal signal?
    setStatus status

mutual

def evaluate (runner : Runner) : Command → RunMode → Act Unit
  | .simple line assignments words redirections, mode => do
    runSimple runner mode line assignments words redirections
    runPending runner
    checkStatus mode
  | .pipeline commands, mode => do
    let count := (← get).streams.length
    runPiped runner none (evaluateAll runner commands { isTested := mode.isTested, isLast := true })
    dropStreams count
    runPending runner
    checkStatus mode
  | .negated inner, _ => do
    evaluate runner inner { isTested := true }
    unless ← isStopped do setStatus (if (← getProcess).status = 0 then 1 else 0)
  | .both first second, mode => do
    evaluate runner first { isTested := true }
    if ← isStopped then return
    if (← getProcess).status = 0 then evaluate runner second mode
  | .either first second, mode => do
    evaluate runner first { isTested := true }
    if ← isStopped then return
    if (← getProcess).status ≠ 0 then evaluate runner second mode
  | .sequence first second, mode => do
    evaluate runner first { isTested := mode.isTested }
    if ← isStopped then return
    evaluate runner second mode
  | .background inner, _ => do
    startJob inner
    setStatus 0
  | .subshell line inner redirections, mode => do
    modifyProcess ({ · with line })
    runSplit runner mode do
      if ← redirect runner redirections then
        evaluate runner inner { isTested := mode.isTested, isLast := true }
      else unless ← isStopped do setStatus 2
    runPending runner
    checkStatus mode
  | .redirected line inner redirections, mode => do
    modifyProcess ({ · with line })
    redirecting runner redirections (evaluate runner inner { isTested := mode.isTested })
  | .condition test first second?, mode => do
    evaluate runner test { isTested := true }
    if ← isStopped then return
    if (← getProcess).status = 0 then evaluate runner first mode
    else
      match second? with
      | some second => evaluate runner second mode
      | none => setStatus 0
  | .loop wanted test body, mode =>
    insideLoop (repeatLoop wanted (evaluate runner test { isTested := true })
      (evaluate runner body { isTested := mode.isTested }) manyRounds 0)
  | .forEach line name words body, mode => do
    modifyProcess ({ · with line })
    let values ← expandWords runner words
    if ← isStopped then return
    setStatus 0
    insideLoop (eachValue name (evaluate runner body { isTested := mode.isTested }) values)
  | .choice line word branches, mode => do
    modifyProcess ({ · with line })
    let t ← expandText runner word
    if ← isStopped then return
    evaluateBranches runner t branches mode
  | .definition name body, _ => do
    modifyProcess fun process =>
      let others := process.functions.filter fun entry => entry.1 != name
      { process with functions := (name, body) :: others }
    setStatus 0

def evaluateAll (runner : Runner) : List Command → RunMode → List (Act Unit)
  | [], _ => []
  | command :: commands, mode =>
    evaluate runner command mode :: evaluateAll runner commands mode

/-- Runs the commands of the first branch with a pattern that a text fits. -/
def evaluateBranches (runner : Runner) (t : Text) :
    List (List Word × Option Command) → RunMode → Act Unit
  | [], _ => setStatus 0
  | (patterns, body?) :: branches, mode => do
    let fits ← fitsAny runner t patterns
    if ← isStopped then return
    if fits then
      match body? with
      | some body => evaluate runner body mode
      | none => setStatus 0
    else evaluateBranches runner t branches mode

end

/-- Runs the lines of a script, of which at most this many are left, and says whether there was
anything to run. -/
def runLines (evaluate : Command → RunMode → Act Unit) (mode : RunMode) :
    (most : Nat) → (isRun : Bool) → Source → Act Bool
  | 0, isRun, _ => return isRun
  | most + 1, isRun, source => do
    match line?.run source with
    | .error found =>
      modifyProcess ({ · with line := found.line })
      fault ("Syntax error: " ++ found.reason)
      return true
    | .ok (command?, rest) =>
      if mode.isRead ∧ (← getProcess).has 'v' then
        let _ ← writeTo 2 (source.rest.take (source.rest.length - rest.rest.length))
      let isLast := mode.isLast && rest.isAtEnd
      let isRun ←
        match command? with
        | some command =>
          unless (← getProcess).has 'n' do evaluate command { mode with isLast }
          pure true
        | none => pure isRun
      if (← isStopped) ∨ (rest.rest.isEmpty) then return isRun
      runLines evaluate mode most isRun rest

/-- The runner that goes at most this deep. -/
def runnerOf : (depth : Nat) → Runner
  | 0 =>
    { command := fun _ _ => setFlow (.killed 11)
      program := fun _ _ => do
        setFlow (.killed 11)
        return none
      script := fun _ _ => do
        setFlow (.killed 11)
        return true
      finish := return }
  | depth + 1 =>
    let inner := runnerOf depth
    { command := fun mode command => evaluate inner command mode
      program := runProgram inner 4
      script := fun mode source =>
        runLines (evaluate inner) mode (source.length + 2) false (Source.ofText source)
      finish := finishWith inner }

/-- How deep commands can be run inside each other. -/
def maxDepthOfRuns : Nat := 250

def usualRunner : Runner := runnerOf maxDepthOfRuns

end Shell

end SampleHarvest
