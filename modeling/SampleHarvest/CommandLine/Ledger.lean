import SampleHarvest.CommandLine.Answer
import SampleHarvest.CommandLine.Command
import SampleHarvest.Config.Basic
import SampleHarvest.Ledger.Export
import SampleHarvest.Ledger.File

/-!
# Looking after the ledger

A ledger is made, asked or changed. Only the command that makes it does so; every other one wants a
ledger that is there.

A question about a release that is not recorded is answered with no and status one. To remove such a
release is a failure.
-/

namespace SampleHarvest

namespace LedgerTask

/-- A release in a sentence. -/
def mention (name language : Text) : Text := name ++ " (" ++ language ++ ")"

/-- The time of publication of a row. -/
def publishedAt (row : ReleaseRow) : Instant := Instant.ofStored row.published

def releaseJson (row : ReleaseRow) : Json :=
  .object
    [("id", .number row.id), ("name", .string row.name), ("language", .string row.language),
      ("tag", .string row.tag), ("package", .string row.package),
      ("version", .string row.version), ("published_at", .string (publishedAt row).isoText)]

def releaseLine (row : ReleaseRow) : Text :=
  Text.joinWith " "
    [Text.padRight 5 row.language, row.package, row.version, (publishedAt row).date.isoText]

def listAnswer (rows : List ReleaseRow) : OutputFormat → Answer
  | .json => .json (.array (rows.map releaseJson))
  | .text => .lines (if rows.isEmpty then ["No releases recorded"] else rows.map releaseLine)

def checkAnswer (name language : Text) (recorded : Bool) (format : OutputFormat) : Answer :=
  let answer := match format with
    | .json =>
      Answer.json (.object
        [("language", .string language), ("name", .string name), ("recorded", .bool recorded)])
    | .text =>
      .lines [mention name language ++ if recorded then " is recorded" else " is not recorded"]
  { answer with status := if recorded then 0 else 1 }

def filesAnswer (paths : List Path) : OutputFormat → Answer
  | .json => .json (.array (paths.map .string))
  | .text => .lines paths

def makeFolders (disk : Disk) (folder : Path) : Disk × Except CommandFailure Unit :=
  match disk.createFolders folder with
  | (disk, .ok ()) => (disk, .ok ())
  | (disk, .error fault) =>
    (disk, .error (.stopped ("Failed to create directory " ++ folder) fault))

/-- Writes the JSON value of a snapshot to a file. -/
def writeJson (snapshot : LedgerExport) (disk : Disk) (path : Path) : Executed :=
  match makeFolders disk ((Path.parent? path).getD []) with
  | (disk, .error failure) => ⟨disk, .error failure⟩
  | (disk, .ok ()) =>
    match disk.writeText path snapshot.json.pretty with
    | .error fault => ⟨disk, .error (.stopped ("Failed to write " ++ path) fault)⟩
    | .ok disk => ⟨disk, .ok (.of [])⟩

def writeTables (disk : Disk) : List (Path × Text) → Executed
  | [] => ⟨disk, .ok (.of [])⟩
  | (path, table) :: tables =>
    match disk.writeText path table with
    | .error fault => ⟨disk, .error (.stopped ("Failed to create " ++ path) fault)⟩
    | .ok disk => writeTables disk tables

def tables (snapshot : LedgerExport) (folder : Path) (lead : Text) : List (Path × Text) :=
  [(Path.join folder (lead ++ "-example-index.csv"), snapshot.releaseIndex),
    (Path.join folder (lead ++ "-example-list.csv"), snapshot.fileList)]

/-- Writes a snapshot where it goes. -/
def deliver (snapshot : LedgerExport) (disk : Disk) : SnapshotTarget → Executed
  | .output => ⟨disk, .ok (.json snapshot.json)⟩
  | .file path => writeJson snapshot disk path
  | .tables folder lead =>
    match makeFolders disk folder with
    | (disk, .error failure) => ⟨disk, .error failure⟩
    | (disk, .ok ()) => writeTables disk (tables snapshot folder lead)

def executeOn (task : LedgerTask) (disk : Disk) (opened : OpenLedger) : Executed :=
  match task with
  | .list language? format => ⟨disk, .ok (listAnswer (opened.ledger.list language?) format)⟩
  | .check name language format =>
    ⟨disk, .ok (checkAnswer name language (opened.ledger.isRecorded name language) format)⟩
  | .files name language format =>
    ⟨disk, .ok (filesAnswer (opened.ledger.filesOf name language) format)⟩
  | .remove name language =>
    match opened.remove name language with
    | .error failure => ⟨disk, .error (.of failure)⟩
    | .ok (true, opened) =>
      ⟨disk.storeLedger opened, .ok (.lines ["✓ Removed " ++ mention name language])⟩
    | .ok (false, _) =>
      ⟨disk, .error (.stated .notFound (mention name language ++ " is not recorded"))⟩
  | .snapshot language? target => deliver (opened.ledger.snapshot language?) disk target

def execute (task : LedgerTask) (path : Path) (disk : Disk) : Executed :=
  if disk.has path then
    match disk.openLedger path with
    | (disk, .error failure) => ⟨disk, .error (.during ("Failed to open ledger " ++ path) failure)⟩
    | (disk, .ok opened) => task.executeOn disk opened
  else
    ⟨disk, .error (.stated .notFound
      ("no ledger at " ++ path ++ "; create one with `exemplar ledger init`"))⟩

end LedgerTask

namespace LedgerCommand

/-- Makes the ledger at a path unless it is there. -/
def initialise (path : Path) (disk : Disk) : Executed :=
  match disk.openLedger path with
  | (disk, .error failure) =>
    ⟨disk, .error (.during ("Failed to initialize ledger " ++ path) failure)⟩
  | (disk, .ok _) => ⟨disk, .ok (.lines ["✓ Ledger ready at " ++ path])⟩

def execute (command : LedgerCommand) (path : Path) (disk : Disk) : Executed :=
  match command with
  | .init => initialise path disk
  | .task work => work.execute path disk

end LedgerCommand

end SampleHarvest
