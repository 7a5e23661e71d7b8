import SampleHarvest.Disk.Basic
import SampleHarvest.Shell.Syntax

/-!
# Machines

A program runs on a machine: a disk, the open files, what has been printed and the time that has
passed. What belongs to the running process alone is kept together, so that a process inside another
one is a change of that part, which is taken back behind it.

Processes run one after the other, also where real ones would run side by side: the one that writes
to a pipe before the one that reads from it. Time passes by waiting only.
-/

namespace SampleHarvest

namespace Shell

/-- Where something is printed. -/
inductive Channel where
  | output
  | errors
  deriving DecidableEq, Repr

/-- What an open file leads to. -/
inductive Stream where
  | printed (channel : Channel)
  | nothing
  | zeros
  /-- To a file, of which the bytes before a position are passed, or to its end. -/
  | file (location : Location) (position : Nat) (appends : Bool)
  | pipe (content : Text)
  deriving DecidableEq, Repr

structure Variable where
  value? : Option Text := none
  isExported : Bool := false
  isReadonly : Bool := false
  deriving DecidableEq, Repr

/-- Why commands are passed over. -/
inductive Flow where
  | broken (loops : Nat)
  | continued (loops : Nat)
  | returned
  | failed
  | exited
  | killed (signal : Nat)
  deriving DecidableEq, Repr

structure Process where
  id : Nat
  name : Text
  arguments : List Text := []
  bindings : List (Text × Variable) := []
  functions : List (Text × Command) := []
  settings : List Char := []
  descriptors : List (Nat × Nat) := []
  /-- What is run when a signal comes or the process ends, by the name of the event. -/
  traps : List (Text × Text) := []
  status : Nat := 0
  innerStatus : Nat := 0
  pending : List Text := []
  line : Nat := 1
  running? : Option Text := none
  flow? : Option Flow := none
  loops : Nat := 0
  calls : Nat := 0
  hidden : List (Text × Option Variable) := []
  outer : List Nat := []
  shellId : Nat
  lastJob? : Option Nat := none
  folder : Text := ['/']
  nextLetter : Nat × Nat := (1, 0)
  known : List Text := []
  aliases : List (Text × Text) := []
  mask : Nat := 0o022

/-- A process that is not waited for. -/
structure Job where
  id : Nat
  process : Process
  folder : Location
  start : Nat
  command : Command
  status? : Option Nat := none
  signal? : Option Nat := none
  stop : Nat := 0

/-- The state of a run. -/
structure Machine where
  disk : Disk
  streams : List Stream
  printed : List (Channel × Bytes) := []
  time : Nat := 0
  lastEnd : Nat := 0
  deadline? : Option Nat := none
  modes : List (Location × Nat) := []
  jobs : List Job := []
  nextId : Nat
  signals : List (Nat × Nat) := []
  process : Process

/-- Something that is done on a machine. -/
abbrev Act := StateM Machine

namespace Process

def value? (process : Process) (name : Text) : Option Text :=
  (process.bindings.lookup name).bind Variable.value?

def setVariable (process : Process) (name : Text) (found : Variable) : Process :=
  let rest := process.bindings.filter fun entry => entry.1 != name
  { process with bindings := (name, found) :: rest }

def has (process : Process) (setting : Char) : Bool := process.settings.contains setting

/-- What is run at an event, if something is. -/
def trap? (process : Process) (event : Text) : Option Text := process.traps.lookup event

/-- What programs get: the variables that are meant for them. -/
def environment (process : Process) : List (Text × Text) :=
  process.bindings.filterMap fun (name, found) =>
    if found.isExported then found.value?.map fun value => (name, value) else none

end Process

def modifyProcess (change : Process → Process) : Act Unit :=
  modify fun machine => { machine with process := change machine.process }

def getProcess : Act Process := do return (← get).process

def setStatus (status : Nat) : Act Unit := modifyProcess ({ · with status })

/-- Has commands passed over. -/
def setFlow (flow : Flow) : Act Unit := modifyProcess ({ · with flow? := some flow })

/-- Whether commands are passed over, because the process leaves them out or the run is over. -/
def isStopped : Act Bool := do
  let machine ← get
  return machine.process.flow?.isSome || machine.deadline?.any (· ≤ machine.time)

/-- The number of the open file that a descriptor leads to. -/
def streamOf? (descriptor : Nat) : Act (Option Nat) := do
  return (← getProcess).descriptors.lookup descriptor

/-- A new open file. -/
def addStream (stream : Stream) : Act Nat := do
  let machine ← get
  set { machine with streams := machine.streams ++ [stream] }
  return machine.streams.length

/-- Forgets the open files but for the first ones, if no process that is not waited for can use
them. -/
def dropStreams (count : Nat) : Act Unit :=
  modify fun machine =>
    if machine.jobs.all (·.status?.isSome) ∧ count < machine.streams.length then
      { machine with streams := machine.streams.take count }
    else machine

/-- Changes an open file. -/
def setStream (number : Nat) (stream : Stream) : Act Unit :=
  modify fun machine => { machine with streams := machine.streams.set number stream }

/-- Lets a descriptor lead to an open file, or closes it. -/
def setDescriptor (descriptor : Nat) (stream? : Option Nat) : Act Unit :=
  modifyProcess fun process =>
    let rest := process.descriptors.filter fun entry => entry.1 != descriptor
    { process with
      descriptors :=
        match stream? with
        | some stream => (descriptor, stream) :: rest
        | none => rest }

/-- The bytes of a file as a raw text. -/
def contentAt (disk : Disk) (location : Location) : Text :=
  match disk.root.get? location with
  | some (.file (.bytes bytes)) => Text.ofBytes bytes
  | _ => []

def setContent (disk : Disk) (location : Location) (raw : Text) : Disk :=
  match location.getLast?, disk.root.get? location with
  | some name, some (.file _) =>
    disk.put location.dropLast name (.file (.bytes (Text.toBytes raw)))
  | _, _ => disk

def overwrite (old : Text) (position : Nat) (part : Text) : Text :=
  let front := old.take position
  front ++ List.replicate (position - front.length) '\x00' ++ part ++
    old.drop (position + part.length)

/-- Writes to an open file. -/
def writeStream (number : Nat) (raw : Text) : Act Unit := do
  let machine ← get
  match machine.streams[number]? with
  | some (.printed channel) =>
    set { machine with printed := (channel, Text.toBytes raw) :: machine.printed }
  | some (.file location position appends) =>
    let old := contentAt machine.disk location
    let place := if appends then old.length else position
    set { machine with
      disk := setContent machine.disk location (overwrite old place raw)
      streams := machine.streams.set number (.file location (place + raw.length) appends) }
  | some (.pipe content) => setStream number (.pipe (content ++ raw))
  | _ => return

/-- Writes to a descriptor, and says whether it is open. -/
def writeTo (descriptor : Nat) (raw : Text) : Act Bool := do
  match ← streamOf? descriptor with
  | some number =>
    writeStream number raw
    return true
  | none => return false

def put (raw : Text) : Act Unit := do
  unless raw.isEmpty do
    let _ ← writeTo 1 raw

def putLine (raw : Text) : Act Unit := put (raw ++ ['\n'])

/-- Prints a line of an error. -/
def complain (raw : Text) : Act Unit := do
  let _ ← writeTo 2 (raw ++ ['\n'])

/-- How many zeros are read where there is no end of them. -/
def manyZeros : Nat := 100000

/-- Reads what is left of an open file, or at most this many bytes. -/
def readStream (number : Nat) (count? : Option Nat := none) : Act Text := do
  let machine ← get
  let portion (t : Text) : Text := count?.elim t t.take
  match machine.streams[number]? with
  | some .zeros => return List.replicate (count?.getD manyZeros) '\x00'
  | some (.file location position appends) =>
    let part := portion ((contentAt machine.disk location).drop position)
    setStream number (.file location (position + part.length) appends)
    return part
  | some (.pipe content) =>
    let part := portion content
    setStream number (.pipe (content.drop part.length))
    return part
  | _ => return []

/-- Reads what is left behind a descriptor, or at most this many bytes. -/
def readFrom (descriptor : Nat) (count? : Option Nat := none) : Act Text := do
  match ← streamOf? descriptor with
  | some number => readStream number count?
  | none => return []

/-- What is left behind a descriptor, and whether it is a file, where reading can stop anywhere. -/
def peek (descriptor : Nat) : Act (Text × Bool) := do
  let machine ← get
  match (← streamOf? descriptor).bind fun number => machine.streams[number]? with
  | some (.file location position _) =>
    return ((contentAt machine.disk location).drop position, true)
  | some (.pipe content) => return (content, false)
  | some .zeros => return (List.replicate manyZeros '\x00', false)
  | _ => return ([], false)

/-- Reads a line with its end; there may be none behind the last line. -/
def readLine (descriptor : Nat) : Act Text := do
  let (ahead, _) ← peek descriptor
  readFrom descriptor (some ((ahead.takeWhile (· ≠ '\n')).length + 1))

def Machine.canPrint (machine : Machine) : Bool :=
  machine.process.descriptors.any fun (_, number) =>
    match machine.streams[number]? with
    | some (.printed _) => true
    | _ => false

/-- Lets time pass until a moment. -/
def waitUntil (moment : Nat) : Act Unit :=
  modify fun machine =>
    let time := max machine.time moment
    let lastEnd := if machine.canPrint then max machine.lastEnd time else machine.lastEnd
    { machine with time, lastEnd }

/-- Lets time pass. -/
def wait (milliseconds : Nat) : Act Unit := do waitUntil ((← get).time + milliseconds)

/-- The milliseconds that pass where something has no end. -/
def forever : Nat := 1000000000

def pathOf (location : Location) : Path := '/' :: Text.joinWith ['/'] location

def folderPath : Act Text := do return Text.toRaw (pathOf (← get).disk.workingFolder)

inductive Opening where
  | reading
  | writing
  | appending
  | updating
  deriving DecidableEq, Repr

def deviceDescriptor? (path : Text) : Option Nat :=
  if path = "/dev/stdin" then some 0
  else if path = "/dev/stdout" then some 1
  else if path = "/dev/stderr" then some 2
  else (path.after? "/dev/fd/").bind Text.toNat?

def openFile (opening : Opening) (path : Text) : Act (Except DiskFault Nat) := do
  let machine ← get
  match machine.disk.locate true (Text.ofRaw path) with
  | .error fault => return .error fault
  | .ok (.present _ (.folder _)) =>
    if opening = .reading then return .ok (← addStream .nothing) else return .error .isFolder
  | .ok (.present location (.file _)) =>
    if opening = .writing then set { machine with disk := setContent machine.disk location [] }
    return .ok (← addStream (.file location 0 (opening = .appending)))
  | .ok (.present _ _) => return .error .missing
  | .ok (.vacant folder name) =>
    if opening = .reading then return .error .missing
    if path.endsWith "/" then return .error .isFolder
    set { machine with disk := machine.disk.put folder name (.file (.bytes [])) }
    return .ok (← addStream (.file (folder ++ [name]) 0 (opening = .appending)))

/-- Opens what a raw path leads to. -/
def openPath (opening : Opening) (path : Text) : Act (Except DiskFault Nat) := do
  if path = "/dev/null" then return .ok (← addStream .nothing)
  if path = "/dev/zero" then return .ok (← addStream .zeros)
  match deviceDescriptor? path with
  | some descriptor =>
    match ← streamOf? descriptor with
    | some number => return .ok number
    | none => return .error .missing
  | none => openFile opening path

/-- The node that a raw path leads to. -/
def nodeAt (path : Text) : Act (Except DiskFault Node) := do
  return (← get).disk.node (Text.ofRaw path)

/-- What the file at a raw path holds. -/
def readPath (path : Text) : Act (Except DiskFault Text) := do
  match ← nodeAt path with
  | .ok (.folder _) => return .error .isFolder
  | _ =>
    match ← openPath .reading path with
    | .ok number => return .ok (← readStream number)
    | .error fault => return .error fault

/-- Changes the disk where that is possible, and says why it is not. -/
def changeDisk (change : Disk → Except DiskFault Disk) : Act (Option DiskFault) := do
  let machine ← get
  match change machine.disk with
  | .ok disk =>
    set { machine with disk }
    return none
  | .error fault => return some fault

def modeOf (machine : Machine) (location : Location) (node : Node) : Nat :=
  (machine.modes.lookup location).getD (if node.isFolder then 0o755 else 0o644)

end Shell

end SampleHarvest
