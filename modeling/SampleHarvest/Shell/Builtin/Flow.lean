import SampleHarvest.Shell.Builtin.Basic

/-!
# Commands that lead elsewhere

A loop, a named command or the whole process is left; a signal is sent or waited with; processes
that run beside are waited for. What is said to be done at a signal is kept by the name of the
signal.
-/

namespace SampleHarvest

namespace Shell

namespace Builtin

def leaveLoops (flow : Nat → Flow) : Builtin := fun _ words => do
  let act (n : Nat) : Act Nat := do
    let loops := min n (← getProcess).loops
    if 0 < loops then setFlow (flow loops)
    return 0
  match words with
  | [] => act 1
  | word :: _ =>
    withNumber word fun n => if n = 0 then refuse ("Illegal number: " ++ word) else act n

/-- Leaves a named command. -/
def returning : Builtin := fun _ words => do
  let act (status : Nat) : Act Nat := do
    setFlow .returned
    return status
  match words with
  | [] => act (← getProcess).status
  | word :: _ => withNumber word act

/-- Ends the process. -/
def exit : Builtin := fun _ words => do
  let act (status : Nat) : Act Nat := do
    setStatus status
    setFlow .exited
    return status
  match words with
  | [] => act (← getProcess).status
  | word :: _ => withNumber word act

/-- Runs words as a script. -/
def eval : Builtin := fun runner words => do
  if ← runner.script {} (Text.joinWith [' '] words) then return (← getProcess).status
  return 0

/-- The number of a signal in a word, where the smallest number has a name too or not. -/
def signalOf? (withEnd : Bool) (word : Text) : Option Nat :=
  match Text.toNat? word with
  | some n => if n ≤ Signal.largest then some n else none
  | none => if withEnd ∧ Text.lower word = "exit" then some 0 else Signal.ofName? word

/-- The name of what is waited with: of a signal or of the end of the process. -/
def eventName (signal : Nat) : Text := if signal = 0 then "EXIT" else Signal.nameOf signal

/-- Says what is to be done at a signal. -/
def setTrap (action? : Option Text) (signal : Nat) : Act Unit :=
  modifyProcess fun process =>
    let event := eventName signal
    let others := process.traps.filter fun trap => trap.1 != event
    { process with
      traps :=
        match action? with
        | some action => (event, action) :: others
        | none => others }

/-- Says what is to be done at some signals. -/
def setTraps (action? : Option Text) : List Text → Act Nat
  | [] => return 0
  | word :: words => do
    match signalOf? true word with
    | none =>
      complain ("trap: " ++ word ++ ": bad trap")
      return 1
    | some signal =>
      setTrap action? signal
      setTraps action? words

/-- Says or shows what is to be done at signals. -/
def trap : Builtin := fun _ words =>
  withLetters [] [] words fun _ words => do
    match words with
    | [] =>
      let process ← getProcess
      for signal in List.range (Signal.largest + 1) do
        match process.trap? (eventName signal) with
        | some action => putLine ("trap -- " ++ quoted action ++ [' '] ++ eventName signal)
        | none => pure ()
      return 0
    | first :: others =>
      let isNumber := (Text.toNat? first).any (· ≤ Signal.largest)
      if others.isEmpty ∨ isNumber then setTraps none words
      else setTraps (if first = ['-'] then none else some first) others

/-- How to send a signal. -/
def killUsage : Text :=
  "Usage: kill [-s sigspec | -signum | -sigspec] [pid | job]... or\nkill -l [exitstatus]"

/-- Shows the names of signals. -/
def listSignals : List Text → Act Nat
  | [] => do
    putLine ['0']
    for signal in List.range (Signal.largest + 1) do
      unless signal = 0 do putLine (Signal.nameOf signal)
    return 0
  | word :: _ => withNumber word fun n => do
    let signal := if 128 < n then n - 128 else n
    if 0 < signal ∧ signal ≤ Signal.largest then
      putLine (Signal.nameOf signal)
      return 0
    refuse ("invalid signal number or exit status: " ++ word)

/-- The process that runs beside and that a word names by its place. -/
def jobAt? (word : Text) : Act (Option Nat) := do
  let jobs := (← get).jobs
  match word with
  | '%' :: place =>
    if place = "%" ∨ place = "+" ∨ place.isEmpty then return jobs.getLast?.map Job.id
    match Text.toNat? place with
    | some (n + 1) => return jobs[n]?.map Job.id
    | _ => return none
  | _ => return none

def sendTo (signal : Nat) : (status : Nat) → List Text → Act Nat
  | status, [] => return status
  | status, word :: words => do
    if word.head? = some '%' then
      match ← jobAt? word with
      | none => refuse ("No such job: " ++ word)
      | some id =>
        let _ ← sendSignal id signal
        sendTo signal status words
    else
      let digits := if word.head? = some '-' then word.drop 1 else word
      match Text.toNat? digits with
      | none => refuse ("Illegal number: " ++ digits)
      | some id =>
        if ← sendSignal id signal then sendTo signal status words
        else
          warn "No such process\n"
          sendTo signal 1 words

/-- Sends a signal to processes, or shows the names of signals. -/
def kill : Builtin := fun _ words => do
  let act (isList : Bool) (signal? : Option Nat) (words : List Text) : Act Nat := do
    if isList then (if signal?.isSome then refuse killUsage else listSignals words)
    else if words.isEmpty then refuse killUsage
    else sendTo (signal?.getD 15) 0 words
  match words with
  | [] => refuse killUsage
  | ('-' :: name) :: others =>
    match signalOf? false name with
    | some signal => act false (some signal) others
    | none =>
      withLetters ['l'] ['s'] words fun found words => do
        let isList := found.any fun entry => entry.1 == 'l'
        match (found.filter fun entry => entry.1 == 's').getLast? with
        | some (_, name) =>
          match signalOf? false name with
          | some signal => act isList (some signal) words
          | none => refuse ("invalid signal number or name: " ++ name)
        | none => act isList none words
  | words => act false none words

/-- Waits for processes that run beside. -/
def waitAll (runner : Runner) : (status : Nat) → List Text → Act Nat
  | status, [] => return status
  | _, word :: words => do
    let id? : Option Nat ←
      if word.head? = some '%' then
        match ← jobAt? word with
        | some id => pure (some id)
        | none => return ← refuse ("No such job: " ++ word)
      else
        match Text.toNat? word with
        | some id => pure (some id)
        | none => return ← refuse ("Illegal number: " ++ word)
    match id? with
    | none => waitAll runner 127 words
    | some id =>
      match ← waitForJob runner id with
      | some (status, signal?) =>
        reportSignal signal?
        waitAll runner status words
      | none => waitAll runner 127 words

/-- Waits for processes that run beside, and for all of them if none is named. -/
def wait : Builtin := fun runner words => do
  if words.isEmpty then
    for job in (← get).jobs do
      let _ ← waitForJob runner job.id
    return 0
  waitAll runner 0 words

/-- Shows the processes that run beside. -/
def jobs : Builtin := fun _ _ => do
  let machine ← get
  for (job, index) in machine.jobs.zipIdx do
    let state : Text :=
      match job.status? with
      | none => "Running"
      | some 0 => "Done"
      | some status => "Done(" ++ Text.ofNat status ++ ")"
    putLine ("[" ++ Text.ofNat (index + 1) ++ "] + " ++ Text.padRight 27 state)
  return 0

/-- Refuses to bring a process to another place. -/
def withoutJob : Builtin := fun _ _ => refuse "No current job"

end Builtin

end Shell

end SampleHarvest
