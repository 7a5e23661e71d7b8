import SampleHarvest.Shell.Program

/-!
# Machines with utilities

A fresh machine has the utilities in the folder for programs, a few files that every machine has,
and nothing else. What is run on it reads nothing and prints to two channels.
-/

namespace SampleHarvest

namespace Shell

def programFolder : Location := ["usr", "bin"]

def programNames : List Text := "sh" :: "dash" :: utilities.map Prod.fst

def utilityFile (name : Text) : Node := .file (.bytes (Text.toBytes (utilityMark ++ name)))

def deviceNames : List Text :=
  ["null", "zero", "stdin", "stdout", "stderr", "tty", "full", "random"]

def users : Text :=
  "root:x:0:0:root:/root:/bin/bash\nnobody:x:65534:65534:nobody:/nonexistent:/usr/sbin/nologin\n"

def emptyFile : Node := .file (.bytes [])

/-- The tree of files of a fresh machine. -/
def installedTree : Node :=
  let programs := programNames.map fun name => (name, utilityFile name)
  let etc : List (Text × Node) :=
    [("hostname", .file (.bytes (Text.toBytes "localhost\n"))),
      ("passwd", .file (.bytes (Text.toBytes users)))]
  let usr : List (Text × Node) :=
    [("bin", .folder programs), ("lib", .folder []),
      ("local", .folder [("bin".toList, .folder []), ("sbin".toList, .folder [])]),
      ("sbin", .folder []), ("share", .folder [])]
  .folder [("bin", .link "usr/bin"),
    ("dev", .folder (deviceNames.map fun name => (name, emptyFile))),
    ("etc", .folder etc), ("home", .folder []), ("lib", .link "usr/lib"), ("root", .folder []),
    ("sbin", .link "usr/sbin"), ("tmp", .folder []), ("usr", .folder usr), ("var", .folder [])]

/-- The permissions of the programs and devices. -/
def installedModes : List (Location × Nat) :=
  programNames.map (fun name => (programFolder ++ [name], 0o755)) ++
    deviceNames.map fun name => (["dev".toList, name], 0o666)

def firstProcess : Nat := 1000

/-- A machine with a disk, before anything is run on it, and the time that a run may take. -/
def Machine.fresh (disk : Disk) (limit? : Option Nat) : Machine :=
  let bindings : List (Text × Variable) :=
    [("HOME", { value? := some "/root", isExported := true }),
      ("PATH", { value? := some usualFolders, isExported := true })]
  { disk
    streams := [.nothing, .printed .output, .printed .errors]
    deadline? := limit?
    modes := installedModes
    nextId := firstProcess + 1
    process :=
      { id := firstProcess
        name := []
        bindings
        descriptors := [(0, 0), (1, 1), (2, 2)]
        shellId := firstProcess } }

/-- The machine after the program of some words has been run on it, or why it cannot be run. -/
def run (runner : Runner) (machine : Machine) (words : List Text) : Except DiskFault Machine :=
  let act : Act (Option DiskFault) := do
    match ← runNamed runner words with
    | some fault => return some fault
    | none =>
      runner.finish
      return none
  if words.headD [] = [] then .error .missing
  else
    match act.run machine with
    | (none, after) => .ok after
    | (some fault, _) => .error fault

end Shell

end SampleHarvest
