import SampleHarvest.Shell.Machine
import SampleHarvest.Shell.Signal

/-!
# Processes

A process runs commands, or one program in its own place. Something that is run in a process that is
split off changes the disk and what is printed, but nothing that belongs to the process it was split
off from.

A process that is not waited for is run later, as if it had been run from its start on: when it is
waited for, or when the process that started it comes to its end.
-/

namespace SampleHarvest

namespace Shell

structure RunMode where
  isTested : Bool := false
  isLast : Bool := false
  isRead : Bool := false

/-- What runs commands and programs inside something else. -/
structure Runner where
  command : RunMode → Command → Act Unit
  /-- Runs the program at a path, with its name and its arguments, in the place of the process, or
  says why that is not possible. -/
  program : (path : Text) → (words : List Text) → Act (Option DiskFault)
  script : RunMode → (source : Text) → Act Bool
  finish : Act Unit

/-- Says something about the running command, with the name of the shell and the line. -/
def warn (message : Text) : Act Unit := do
  let process ← getProcess
  let running : Text :=
    match process.running? with
    | some name => name ++ ": "
    | none => []
  complain (process.name ++ ": " ++ Text.ofNat process.line ++ ": " ++ running ++ message)

def fault (message : Text) : Act Unit := do
  warn message
  setStatus 2
  setFlow .failed

/-- Gives a variable a value, if it can be changed. -/
def assign (name value : Text) : Act Unit := do
  let process ← getProcess
  let old := (process.bindings.lookup name).getD {}
  if old.isReadonly then fault (name ++ ": is read only")
  else
    let isExported := old.isExported || process.has 'a'
    modifyProcess (·.setVariable name { old with value? := some value, isExported })

def receive (signal : Nat) : Act Unit := do
  let name := Signal.nameOf signal
  let canChoose := signal ≠ 9 ∧ signal ≠ 19
  match (← getProcess).trap? name with
  | some source =>
    if canChoose then
      unless source.isEmpty do
        modifyProcess fun process => { process with pending := process.pending ++ [name] }
      return
  | none => pure ()
  if Signal.isHarmless signal then return
  if Signal.stops signal then waitUntil forever else setFlow (.killed signal)

/-- What the signals that were sent to the process from inside do to it. -/
def receiveAll : Act Unit := do
  let machine ← get
  let (own, others) := machine.signals.partition fun (id, _) => id == machine.process.id
  set { machine with signals := others }
  for (_, signal) in own do
    receive signal

/-- Sends a signal to a process, if there is one with this number. -/
def sendSignal (id signal : Nat) : Act Bool := do
  let machine ← get
  if machine.process.id = id then
    unless signal = 0 do receive signal
    return true
  if machine.process.outer.contains id then
    unless signal = 0 do set { machine with signals := machine.signals ++ [(id, signal)] }
    return true
  if machine.jobs.any (·.id == id) then
    let jobs := machine.jobs.map fun job =>
      if job.id = id ∧ job.status?.isNone ∧ signal ≠ 0 ∧ !Signal.isHarmless signal then
        { job with status? := some (128 + signal), signal? := some signal, stop := machine.time }
      else job
    set { machine with jobs }
    return true
  return false

/-- The status of the process, and the signal that has ended it, if one has. -/
def outcome : Act (Nat × Option Nat) := do
  let process ← getProcess
  match process.flow? with
  | some (.killed signal) => return (128 + signal, some signal)
  | _ => return (process.status, none)

/-- Runs something in a process that is split off, and gives the outcome of that process. -/
def inChild (runner : Runner) (act : Act Unit) : Act (Nat × Option Nat) := do
  let outer ← get
  let process := outer.process
  set { outer with
    nextId := outer.nextId + 1
    jobs := []
    process :=
      { process with
        id := outer.nextId
        outer := process.id :: process.outer
        traps := process.traps.filter fun trap => trap.2.isEmpty
        loops := 0 } }
  act
  runner.finish
  let outcome ← outcome
  let after ← get
  set { after with
    disk := { after.disk with workingFolder := outer.disk.workingFolder }
    streams := after.streams.take outer.streams.length
    jobs := outer.jobs
    process }
  receiveAll
  return outcome

/-- Says that a signal has ended a process that was waited for, if that is worth saying. -/
def reportSignal (signal? : Option Nat) : Act Unit := do
  match signal? with
  | some signal =>
    unless signal = 2 ∨ signal = 13 do complain (Signal.descriptionOf signal)
  | none => return

/-- What commands print in a process that is split off, with the status of that process. -/
def outputOf (runner : Runner) (act : Act Unit) : Act (Text × Nat) := do
  let machine ← get
  let pipe ← addStream (.pipe [])
  setDescriptor 1 (some pipe)
  let (status, signal?) ← inChild runner act
  modifyProcess ({ · with descriptors := machine.process.descriptors })
  reportSignal signal?
  let output ← readStream pipe
  dropStreams machine.streams.length
  return (output, status)

/-- Runs a process that is not waited for from its start to its end. -/
def runJob (runner : Runner) (job : Job) : Act Unit := do
  let outer ← get
  if job.status?.isSome then return
  set { outer with
    disk := { outer.disk with workingFolder := job.folder }
    time := job.start
    jobs := []
    process := job.process }
  runner.command { isLast := true } job.command
  runner.finish
  let (status, signal?) ← outcome
  let after ← get
  let done := { job with status? := some status, signal?, stop := after.time }
  set { after with
    disk := { after.disk with workingFolder := outer.disk.workingFolder }
    time := outer.time
    jobs := outer.jobs.map fun (other : Job) => if other.id = job.id then done else other
    process := outer.process }
  receiveAll

/-- Runs the processes that are not waited for. -/
def runJobs (runner : Runner) : Act Unit := do
  for job in (← get).jobs do
    runJob runner job

/-- Starts a process that is not waited for. It reads nothing. -/
def startJob (command : Command) : Act Unit := do
  let input ← addStream .nothing
  let machine ← get
  let process := machine.process
  let id := machine.nextId
  let descriptors := (0, input) :: process.descriptors.filter fun entry => entry.1 != 0
  let job : Job :=
    { id
      process :=
        { process with
          id
          outer := process.id :: process.outer
          descriptors
          traps := process.traps.filter fun trap => trap.2.isEmpty
          loops := 0 }
      folder := machine.disk.workingFolder
      start := machine.time
      command }
  set { machine with nextId := id + 1, jobs := machine.jobs ++ [job] }
  modifyProcess ({ · with lastJob? := some id })

/-- Waits for a process that was not waited for, and gives its outcome. -/
def waitForJob (runner : Runner) (id : Nat) : Act (Option (Nat × Option Nat)) := do
  match (← get).jobs.find? (·.id == id) with
  | none => return none
  | some job => runJob runner job
  match (← get).jobs.find? (·.id == id) with
  | none => return none
  | some job =>
    waitUntil job.stop
    modify fun machine => { machine with jobs := machine.jobs.filter (·.id != id) }
    return some (job.status?.getD 0, job.signal?)

/-- Runs what is set for the end of the process, and then the processes that it did not wait for. -/
def finishWith (runner : Runner) : Act Unit := do
  let process ← getProcess
  let isKilled : Bool :=
    match process.flow? with
    | some (.killed _) => true
    | _ => false
  let event : Text := "EXIT"
  match process.trap? event with
  | some source =>
    unless isKilled do
      let traps := process.traps.filter fun trap => trap.1 != event
      modifyProcess ({ · with flow? := none, traps })
      let _ ← runner.script {} source
      modifyProcess fun after =>
        if after.flow?.isNone then { after with status := process.status } else after
  | none => pure ()
  let flow? := (← getProcess).flow?
  runJobs runner
  modifyProcess ({ · with flow? })

end Shell

end SampleHarvest
