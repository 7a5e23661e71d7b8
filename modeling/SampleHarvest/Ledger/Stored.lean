import SampleHarvest.Csv
import SampleHarvest.Disk.Node
import SampleHarvest.Text.Decimal

/-!
# Stored ledgers

Outside a run a ledger is stored as a table: a record that tells what the table is, then one record
for each row. The first field of a record says which kind of row it is.

A file that is no such table holds bytes and nothing else.
-/

namespace SampleHarvest

namespace Ledger

/-- The record that a stored ledger begins with. -/
def signature : Csv.Record := ["release ledger"]

def releaseKind : Text := "release"

def fileKind : Text := "file"

def storedRelease (row : ReleaseRow) : Csv.Record :=
  [releaseKind, Text.ofNat row.id, row.name, row.language, row.tag, row.package, row.version,
    Text.ofInt row.published]

def storedFile (row : FileRow) : Csv.Record :=
  [fileKind, Text.ofNat row.id, row.path, Text.ofNat row.releaseId]

def records (ledger : Ledger) : List Csv.Record :=
  signature :: (ledger.releases.map storedRelease ++ ledger.files.map storedFile)

/-- The number that a text with an optional minus sign stands for. -/
def parseInt? : Text → Option Int
  | '-' :: digits => (Text.toNat? digits).map fun n => -(n : Int)
  | digits => (Text.toNat? digits).map fun n => (n : Int)

/-- The ledger with the row of a record at the end. -/
def addRecord? (ledger : Ledger) : Csv.Record → Option Ledger
  | [kind, id, path, releaseId] => do
    guard (kind = fileKind)
    return { ledger with
      files := ledger.files ++ [⟨← Text.toNat? id, path, ← Text.toNat? releaseId⟩] }
  | [kind, id, name, language, tag, package, version, published] => do
    guard (kind = releaseKind)
    let row : ReleaseRow :=
      ⟨← Text.toNat? id, name, language, tag, package, version, ← parseInt? published⟩
    return { ledger with releases := ledger.releases ++ [row] }
  | _ => none

def ofRecords? : List Csv.Record → Option Ledger
  | [] => none
  | first :: rows => if first = signature then rows.foldlM addRecord? .empty else none

end Ledger

namespace Content

/-- What a file with these bytes holds. -/
def ofBytes (held : Bytes) : Content :=
  match (Utf8.decode? held).bind Csv.parse? |>.bind Ledger.ofRecords? with
  | some rows => .ledger rows
  | none => .bytes held

def toBytes : Content → Bytes
  | .bytes held => held
  | .ledger rows => Utf8.encode (Csv.render rows.records)

end Content

end SampleHarvest
