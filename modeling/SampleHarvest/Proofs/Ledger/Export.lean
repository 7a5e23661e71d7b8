import SampleHarvest.Ledger.Export
import SampleHarvest.Proofs.Csv.Format
import SampleHarvest.Proofs.Text.Decimal

/-!
# Reading an export back

The two tables of an export hold all of it. By the format alone, and so for every reader of it, each
table stands for its header and one record for each row, whatever characters the fields hold.
-/

namespace SampleHarvest

namespace LedgerExport

def releaseRecords (snapshot : LedgerExport) : List Csv.Record :=
  releaseHeader :: snapshot.releases.map releaseRecord

def fileRecords (snapshot : LedgerExport) : List Csv.Record :=
  fileHeader :: snapshot.files.map fileRecord

variable {snapshot : LedgerExport}

theorem length_of_mem_releaseRecords {record : Csv.Record} (h : record ∈ snapshot.releaseRecords) :
    record.length = 8 := by
  rcases List.mem_cons.mp h with rfl | hrow
  · rfl
  · obtain ⟨release, -, rfl⟩ := List.mem_map.mp hrow
    rfl

theorem length_of_mem_fileRecords {record : Csv.Record} (h : record ∈ snapshot.fileRecords) :
    record.length = 3 := by
  rcases List.mem_cons.mp h with rfl | hrow
  · rfl
  · obtain ⟨file, -, rfl⟩ := List.mem_map.mp hrow
    rfl

theorem reads_releaseIndex_iff {records : List Csv.Record} :
    Csv.Reads snapshot.releaseIndex records ↔ records = snapshot.releaseRecords :=
  Csv.reads_render_iff (by decide) (List.cons_ne_nil _ _) fun _ => length_of_mem_releaseRecords

theorem reads_fileList_iff {records : List Csv.Record} :
    Csv.Reads snapshot.fileList records ↔ records = snapshot.fileRecords :=
  Csv.reads_render_iff (by decide) (List.cons_ne_nil _ _) fun _ => length_of_mem_fileRecords

theorem parse?_releaseIndex (snapshot : LedgerExport) :
    Csv.parse? snapshot.releaseIndex = some snapshot.releaseRecords := by
  refine Csv.parse?_render fun record hrecord => ?_
  exact List.ne_nil_of_length_eq_add_one (length_of_mem_releaseRecords hrecord)

theorem parse?_fileList (snapshot : LedgerExport) :
    Csv.parse? snapshot.fileList = some snapshot.fileRecords := by
  refine Csv.parse?_render fun record hrecord => ?_
  exact List.ne_nil_of_length_eq_add_one (length_of_mem_fileRecords hrecord)

theorem releaseRecord_injective : Function.Injective releaseRecord := by
  intro a b h
  simp only [releaseRecord, List.cons.injEq, Text.ofInt_injective.eq_iff, and_true] at h
  cases a
  cases b
  simpa using h

theorem fileRecord_injective : Function.Injective fileRecord := by
  intro a b h
  simp only [fileRecord, List.cons.injEq, Text.ofInt_injective.eq_iff, and_true] at h
  cases a
  cases b
  simpa using h

theorem eq_of_records_eq {a b : LedgerExport} (hreleases : a.releaseRecords = b.releaseRecords)
    (hfiles : a.fileRecords = b.fileRecords) : a = b := by
  have hreleases : a.releases = b.releases :=
    List.map_injective_iff.mpr releaseRecord_injective (List.cons.inj hreleases).2
  have hfiles : a.files = b.files :=
    List.map_injective_iff.mpr fileRecord_injective (List.cons.inj hfiles).2
  cases a
  cases b
  simp_all

/-- Both tables are in the format and have one reading only, the header and one record for each
row, and no other snapshot has the same tables. -/
theorem tables_lossless (snapshot : LedgerExport) :
    (∀ records, Csv.Reads snapshot.releaseIndex records ↔
      records = releaseHeader :: snapshot.releases.map releaseRecord) ∧
    (∀ records, Csv.Reads snapshot.fileList records ↔
      records = fileHeader :: snapshot.files.map fileRecord) ∧
    Csv.parse? snapshot.releaseIndex =
      some (releaseHeader :: snapshot.releases.map releaseRecord) ∧
    Csv.parse? snapshot.fileList = some (fileHeader :: snapshot.files.map fileRecord) ∧
    ∀ other : LedgerExport, other.releaseIndex = snapshot.releaseIndex →
      other.fileList = snapshot.fileList → other = snapshot := by
  refine ⟨fun _ => reads_releaseIndex_iff, fun _ => reads_fileList_iff,
    parse?_releaseIndex snapshot, parse?_fileList snapshot, fun other hindex hlist => ?_⟩
  -- Each table of the other snapshot is read as the table of this one.
  have hreleases : other.releaseRecords = snapshot.releaseRecords :=
    reads_releaseIndex_iff.mp (hindex ▸ reads_releaseIndex_iff.mpr rfl)
  have hfiles : other.fileRecords = snapshot.fileRecords :=
    reads_fileList_iff.mp (hlist ▸ reads_fileList_iff.mpr rfl)
  exact eq_of_records_eq hreleases hfiles

/-- The quotes, commas and line ends of a field are told from those of the table. -/
example :
    Csv.parse? (fileList ⟨[], [⟨-4, "a,\x22b\x22\r\n".toList, 12⟩, ⟨5, [], 0⟩]⟩) =
      some [fileHeader, fileRecord ⟨-4, "a,\x22b\x22\r\n".toList, 12⟩, fileRecord ⟨5, [], 0⟩] := by
  decide

end LedgerExport

end SampleHarvest
