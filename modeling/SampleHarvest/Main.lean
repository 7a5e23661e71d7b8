import SampleHarvest.CommandLine.Run
import SampleHarvest.Disk.Change
import SampleHarvest.Ledger.Stored

/-!
# The program

The files that a command line names are read into a disk, the command is run on it, and what it
changed is written back. Nothing else is decided here.
-/

namespace SampleHarvest

namespace Outside

/-- The name of an entry and its node, read to this depth; nothing for what is no folder, no file
and no link. -/
def readEntry : (depth : Nat) → IO.FS.DirEntry → IO (List (Text × Node))
  | 0, _ => return []
  | depth + 1, entry => do
    let name := entry.fileName.toList
    match (← entry.path.symlinkMetadata).type with
    | .dir =>
      let inner ← (← entry.path.readDir).toList.mapM (readEntry depth)
      return [(name, .folder inner.flatten)]
    | .file => return [(name, .file (.ofBytes (← IO.FS.readBinFile entry.path).toList))]
    | .symlink => return [(name, .link (← IO.FS.realPath entry.path).toString.toList)]
    | _ => return []

/-- The disk with what has this name in a folder, read to this depth. What cannot be read is left
out. -/
def mountEntry (disk : Disk) (folder : Location) (name : Text) (depth : Nat) : IO Disk := do
  let path := String.ofList ("/" ++ Text.joinWith "/" folder)
  let entries ← try (← IO.FS.realPath path).readDir catch _ => pure #[]
  match entries.find? fun entry => entry.fileName.toList = name with
  | none => return disk
  | some entry =>
    let found ← try readEntry depth entry catch _ => pure []
    return found.foldl (fun disk (name, node) => disk.put folder name node) disk

/-- The disk with what names lead to from a folder, and with the folders on the way. -/
def mountFrom (disk : Disk) (folder : Location) : List Text → IO Disk
  | [] => return disk
  | [name] => mountEntry disk folder name Disk.maxPathSize
  | name :: names => do
    let inner := if name = ".." then folder.dropLast else folder ++ [name]
    if (disk.root.get? inner).isSome then mountFrom disk inner names
    else mountFrom (← mountEntry disk folder name 1) inner names

def mountPath (disk : Disk) (path : Path) : IO Disk :=
  mountFrom disk (disk.start path)
    ((Text.splitOn '/' path).filter fun part => !Path.isIdlePart part)

/-- The disk with what paths lead to, over links too. -/
def mountAll (disk : Disk) (paths : List Path) : IO Disk :=
  paths.foldlM (fun disk path => do
    let disk ← mountPath disk path
    let target ← try IO.FS.realPath (String.ofList path) catch _ => return disk
    mountPath disk target.toString.toList) disk

/-- Makes a change to the files outside. -/
def change : Change → IO Unit
  | .folder path => IO.FS.createDir (String.ofList path)
  | .file path content => IO.FS.writeBinFile (String.ofList path) ⟨content.toBytes.toArray⟩

/-- The time of the clock that files are marked with. -/
def clock : IO Instant := do
  let (_, path) ← IO.FS.createTempFile
  let time := (← path.metadata).modified
  IO.FS.removeFile path
  return ⟨time.sec, time.nsec.toNat⟩

def environmentValue (name : String) : IO (Option Text) :=
  return (← IO.getEnv name).map String.toList

def readSurroundings : IO Surroundings := do
  return { home := (← environmentValue "HOME").getD "/"
           configVariable? := ← environmentValue "EXEMPLAR_CONFIG"
           now := ← clock }

/-- Prints, and gives the status with which the program ends. -/
def finish (status : Nat) (output errors : Text) : IO UInt32 := do
  (← IO.getStdout).putStr (String.ofList output)
  (← IO.getStderr).putStr (String.ofList errors)
  return status.toUInt32

def perform (invocation : Invocation) : IO UInt32 := do
  let surroundings ← readSurroundings
  let here := (← IO.currentDir).toString.toList
  let bare : Disk := ⟨.folder [], []⟩
  let disk : Disk := { (bare.createFolders here).1 with
    workingFolder := (Text.splitOn '/' here).filter fun part => !part.isEmpty }
  let settings := surroundings.configPath :: (surroundings.namedConfig? invocation.config?).toList
  let disk ← mountAll disk settings
  let ledgerPath := match Config.load surroundings disk invocation.config? with
    | .ok config => config.ledger.path
    | .error _ => surroundings.ledgerPath
  let disk ← mountAll disk (invocation.command.paths ledgerPath)
  let run := invocation.run surroundings disk
  (Change.all disk.root run.disk.root).forM change
  finish run.status run.output run.errors

end Outside

end SampleHarvest

open SampleHarvest in
/-- The program. -/
def main (arguments : List String) : IO UInt32 :=
  match Invocation.parse (arguments.map String.toList) with
  | .error refusal => Outside.finish refusal.status refusal.output refusal.errors
  | .ok invocation => Outside.perform invocation
