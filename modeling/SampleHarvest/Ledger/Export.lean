import SampleHarvest.Csv
import SampleHarvest.Json
import SampleHarvest.Ledger.Basic

/-!
# Exports

An export is a snapshot of the ledger for publication: the releases of one language, or all, and the
files that they own, each in the order of the row numbers. It is written as one JSON value or as a
pair of tables.
-/

namespace SampleHarvest

structure ExportedRelease where
  id : Int
  name : Text
  language : Text
  tag : Text
  package : Text
  version : Text
  /-- The second of publication since the start of 1970. -/
  seconds : Int
  date : Text
  deriving DecidableEq, Repr

structure ExportedFile where
  id : Int
  /-- The path of the file below the output root. -/
  path : Path
  /-- The number of the release that owns the file. -/
  releaseId : Int
  deriving DecidableEq, Repr

structure LedgerExport where
  releases : List ExportedRelease
  files : List ExportedFile
  deriving DecidableEq, Repr

def ExportedRelease.ofRow (row : ReleaseRow) : ExportedRelease :=
  { id := row.id
    name := row.name
    language := row.language
    tag := row.tag
    package := row.package
    version := row.version
    seconds := row.published
    date := (Instant.ofStored row.published).date.slashText }

def ExportedFile.ofRow (row : FileRow) : ExportedFile := ⟨row.id, row.path, row.releaseId⟩

/-- The snapshot of the releases of one language, or of all. -/
def Ledger.snapshot (ledger : Ledger) (filter? : Option Text) : LedgerExport :=
  let releases := ledger.releases.filter fun row => passes filter? row.language
  let files := ledger.files.filter fun file => releases.any fun row => row.id = file.releaseId
  ⟨releases.map ExportedRelease.ofRow, files.map ExportedFile.ofRow⟩

namespace LedgerExport

/-- The names of the columns of the release index. -/
def releaseHeader : Csv.Record :=
  ["id", "name", "language", "tag", "package",
    "version", "date_epoch", "date"]

/-- The names of the columns of the file list. -/
def fileHeader : Csv.Record := ["id", "file", "release_id"]

def releaseRecord (row : ExportedRelease) : Csv.Record :=
  [Text.ofInt row.id, row.name, row.language, row.tag, row.package, row.version,
    Text.ofInt row.seconds, row.date]

def fileRecord (row : ExportedFile) : Csv.Record :=
  [Text.ofInt row.id, row.path, Text.ofInt row.releaseId]

def releaseIndex (snapshot : LedgerExport) : Text :=
  Csv.render (releaseHeader :: snapshot.releases.map releaseRecord)

def fileList (snapshot : LedgerExport) : Text :=
  Csv.render (fileHeader :: snapshot.files.map fileRecord)

def releaseJson (row : ExportedRelease) : Json :=
  .object
    [("id", .number row.id), ("name", .string row.name),
      ("language", .string row.language), ("tag", .string row.tag),
      ("package", .string row.package), ("version", .string row.version),
      ("date_epoch", .number row.seconds), ("date", .string row.date)]

def fileJson (row : ExportedFile) : Json :=
  .object
    [("id", .number row.id), ("file", .string row.path),
      ("release_id", .number row.releaseId)]

def json (snapshot : LedgerExport) : Json :=
  .object
    [("releases", .array (snapshot.releases.map releaseJson)),
      ("files", .array (snapshot.files.map fileJson))]

end LedgerExport

end SampleHarvest
