import Mathlib.Data.Finset.Dedup
import Mathlib.Data.List.Lex
import Mathlib.Data.List.Sort
import Mathlib.Logic.Function.Basic
import SampleHarvest.Proofs.Ledger.Integrity

/-!
# A ledger is a partial map

Seen from outside a ledger is a map from the keys of releases to what is kept about them, in which
no path belongs to two keys. The rules of such a catalog say nothing of rows, numbers or tables.
They allow one answer to every call, and from the empty ledger on it is the answer that the ledger
gives.
-/

namespace SampleHarvest

/-- What is kept about a release. -/
structure ReleaseEntry where
  tag : Text
  package : Text
  version : Text
  /-- The second of publication since the start of 1970. -/
  published : Int
  paths : Finset Path

/-- What a recording asks to be kept. -/
def Recording.entry (recording : Recording) : ReleaseEntry where
  tag := recording.tag
  package := recording.package
  version := recording.version
  published := recording.published.seconds
  paths := recording.files.toFinset

/-- What is told about a release in a list: its row without the number. -/
structure ListedRelease where
  key : ReleaseKey
  tag : Text
  package : Text
  version : Text
  /-- The second of publication since the start of 1970. -/
  published : Int

def ReleaseRow.listed (row : ReleaseRow) : ListedRelease :=
  ⟨row.key, row.tag, row.package, row.version, row.published⟩

def ReleaseEntry.listed (entry : ReleaseEntry) (key : ReleaseKey) : ListedRelease :=
  ⟨key, entry.tag, entry.package, entry.version, entry.published⟩

namespace ListedRelease

def columns (row : ListedRelease) : List Bytes :=
  [row.key.language, row.package, row.version, row.key.name].map Utf8.encode

/-- Whether the first different column has smaller bytes. -/
def IsBefore (a b : ListedRelease) : Prop := List.Lex Bytes.IsBefore a.columns b.columns

end ListedRelease

/-- A partial map from the keys of releases to what is kept about them. -/
abbrev Catalog := ReleaseKey → Option ReleaseEntry

inductive LedgerCall where
  | init
  | record (recording : Recording) (policy : Policy)
  | remove (key : ReleaseKey)
  | isRecorded (key : ReleaseKey)
  | filesOf (key : ReleaseKey)
  /-- To name the releases of one language, or all. -/
  | list (filter? : Option Text)

inductive LedgerAnswer where
  | ready
  | recorded (outcome : Outcome)
  /-- The recording failed over a file of another release. -/
  | refused (clash : Clash)
  | removed (wasThere : Bool)
  | known (isThere : Bool)
  | files (paths : List Path)
  | releases (rows : List ListedRelease)

namespace Catalog

def empty : Catalog := fun _ => none

def bind (catalog : Catalog) (key : ReleaseKey) (entry : ReleaseEntry) : Catalog :=
  Function.update catalog key (some entry)

def unbind (catalog : Catalog) (key : ReleaseKey) : Catalog := Function.update catalog key none

def Owns (catalog : Catalog) (key : ReleaseKey) (path : Path) : Prop :=
  ∃ entry, catalog key = some entry ∧ path ∈ entry.paths

/-- No path belongs to two keys. -/
def IsDisjoint (catalog : Catalog) : Prop :=
  ∀ path key other, catalog.Owns key path → catalog.Owns other path → key = other

def IsFreeFor (catalog : Catalog) (key : ReleaseKey) (path : Path) : Prop :=
  ∀ other, catalog.Owns other path → other = key

/-- The first of some paths that belongs to another key, together with that key. -/
def FirstClash (catalog : Catalog) (key : ReleaseKey) (paths : List Path) (clash : Clash) : Prop :=
  (∃ front back, paths = front ++ clash.path :: back ∧ ∀ path ∈ front, catalog.IsFreeFor key path) ∧
    catalog.Owns ⟨clash.name, clash.language⟩ clash.path ∧ ⟨clash.name, clash.language⟩ ≠ key

theorem owns_bind {catalog : Catalog} {key other : ReleaseKey} {entry : ReleaseEntry}
    {path : Path} :
    (catalog.bind key entry).Owns other path ↔
      if other = key then path ∈ entry.paths else catalog.Owns other path := by
  split_ifs with hother
  · simp [Owns, bind, hother]
  · simp [Owns, bind, hother]

theorem owns_unbind {catalog : Catalog} {key other : ReleaseKey} {path : Path} :
    (catalog.unbind key).Owns other path ↔ other ≠ key ∧ catalog.Owns other path := by
  by_cases hother : other = key
  · simp [Owns, unbind, hother]
  · simp [Owns, unbind, hother]

inductive Step (catalog : Catalog) : LedgerCall → LedgerAnswer → Catalog → Prop
  /-- The tables of a ledger may be made again. -/
  | init : Step catalog .init .ready catalog
  /-- A release that is there stays if the policy says so. -/
  | duplicate {recording : Recording} (hbound : catalog recording.key ≠ none) :
      Step catalog (.record recording .reject) (.recorded .duplicate) catalog
  /-- Otherwise a file of another release refuses the recording. -/
  | refused {recording : Recording} {policy : Policy} {clash : Clash}
      (hopen : catalog recording.key = none ∨ policy = .replace)
      (hclash : catalog.FirstClash recording.key recording.files clash) :
      Step catalog (.record recording policy) (.refused clash) catalog
  | written {recording : Recording} {policy : Policy} (hfresh : catalog recording.key = none)
      (hfree : ∀ path ∈ recording.files, catalog.IsFreeFor recording.key path) :
      Step catalog (.record recording policy) (.recorded .written)
        (catalog.bind recording.key recording.entry)
  | replaced {recording : Recording} (hbound : catalog recording.key ≠ none)
      (hfree : ∀ path ∈ recording.files, catalog.IsFreeFor recording.key path) :
      Step catalog (.record recording .replace) (.recorded .replaced)
        (catalog.bind recording.key recording.entry)
  | remove (key : ReleaseKey) :
      Step catalog (.remove key) (.removed (catalog key).isSome) (catalog.unbind key)
  | isRecorded (key : ReleaseKey) :
      Step catalog (.isRecorded key) (.known (catalog key).isSome) catalog
  | filesOf {key : ReleaseKey} {paths : List Path}
      (horder : paths.Pairwise fun a b => (Utf8.encode a).IsBefore (Utf8.encode b))
      (hpaths : ∀ path, path ∈ paths ↔ catalog.Owns key path) :
      Step catalog (.filesOf key) (.files paths) catalog
  /-- A list tells the bound keys whose language is the one that is asked for. -/
  | list {filter? : Option Text} {rows : List ListedRelease}
      (horder : rows.Pairwise ListedRelease.IsBefore)
      (hrows : ∀ row, row ∈ rows ↔
        ∃ key entry, catalog key = some entry ∧ row = entry.listed key ∧
          ∀ language ∈ filter?, key.language = language) :
      Step catalog (.list filter?) (.releases rows) catalog

/-- What a catalog may answer to one call after the other, and the catalog in the end. -/
inductive Run : Catalog → List LedgerCall → List LedgerAnswer → Catalog → Prop
  | nil {catalog : Catalog} : Run catalog [] [] catalog
  | cons {catalog next last : Catalog} {call : LedgerCall} {answer : LedgerAnswer}
      {calls : List LedgerCall} {answers : List LedgerAnswer}
      (hstep : Step catalog call answer next) (hrun : Run next calls answers last) :
      Run catalog (call :: calls) (answer :: answers) last

end Catalog

namespace Ledger

def answer (ledger : Ledger) : LedgerCall → LedgerAnswer × Ledger
  | .init => (.ready, ledger)
  | .record recording policy =>
    match ledger.record recording policy with
    | .ok (outcome, next) => (.recorded outcome, next)
    | .error clash => (.refused clash, ledger)
  | .remove key =>
    let (wasThere, next) := ledger.remove key.name key.language
    (.removed wasThere, next)
  | .isRecorded key => (.known (ledger.isRecorded key.name key.language), ledger)
  | .filesOf key => (.files (ledger.filesOf key.name key.language), ledger)
  | .list filter? => (.releases ((ledger.list filter?).map ReleaseRow.listed), ledger)

/-- What a ledger answers to one call after the other, and the ledger in the end. -/
def answers (ledger : Ledger) : List LedgerCall → List LedgerAnswer × Ledger
  | [] => ([], ledger)
  | call :: calls =>
    let (answer, next) := ledger.answer call
    let (rest, last) := next.answers calls
    (answer :: rest, last)

/-- The file rows of the release of a number. -/
def filesOwned (ledger : Ledger) (id : Nat) : List FileRow :=
  ledger.files.filter fun file => file.releaseId = id

/-- What the rows keep about a release. -/
def entryOf (ledger : Ledger) (row : ReleaseRow) : ReleaseEntry where
  tag := row.tag
  package := row.package
  version := row.version
  published := row.published
  paths := ((ledger.files.filter fun file => file.releaseId = row.id).map FileRow.path).toFinset

/-- The map that the rows stand for. -/
def catalog (ledger : Ledger) : Catalog := fun key =>
  (ledger.find? key.name key.language).map ledger.entryOf

variable {ledger : Ledger}

theorem catalog_isSome (ledger : Ledger) (key : ReleaseKey) :
    (ledger.catalog key).isSome = ledger.isRecorded key.name key.language := by
  rw [catalog, isRecorded, Option.isSome_map]

theorem catalog_eq_none_iff {key : ReleaseKey} :
    ledger.catalog key = none ↔ ∀ row ∈ ledger.releases, row.key ≠ key := by
  rw [catalog, Option.map_eq_none_iff, find?_eq_none_iff]

theorem IsSound.catalog_eq_some_iff (h : ledger.IsSound) {key : ReleaseKey} {entry : ReleaseEntry} :
    ledger.catalog key = some entry ↔
      ∃ row ∈ ledger.releases, row.key = key ∧ ledger.entryOf row = entry := by
  simp only [catalog, Option.map_eq_some_iff, h.find?_eq_some_iff, and_assoc]

theorem entryOf_eq (ledger : Ledger) (row : ReleaseRow) :
    ledger.entryOf row =
      ⟨row.tag, row.package, row.version, row.published,
        ((ledger.filesOwned row.id).map FileRow.path).toFinset⟩ :=
  rfl

theorem mem_paths_entryOf {row : ReleaseRow} {path : Path} :
    path ∈ (ledger.entryOf row).paths ↔
      ∃ file ∈ ledger.files, file.path = path ∧ file.releaseId = row.id := by
  simp only [entryOf, List.mem_toFinset, List.mem_map, List.mem_filter, decide_eq_true_eq,
    and_assoc]
  exact exists_congr fun file => and_congr_right fun _ => and_comm

theorem IsSound.owns_iff (h : ledger.IsSound) {key : ReleaseKey} {path : Path} :
    ledger.catalog.Owns key path ↔ ∃ row, ledger.owner? path = some row ∧ row.key = key := by
  simp only [Catalog.Owns, h.catalog_eq_some_iff, h.owner?_eq_some_iff]
  constructor
  · rintro ⟨_, ⟨row, hrow, hkey, rfl⟩, hpath⟩
    exact ⟨row, ⟨hrow, mem_paths_entryOf.mp hpath⟩, hkey⟩
  · rintro ⟨row, ⟨hrow, hfile⟩, hkey⟩
    exact ⟨_, ⟨row, hrow, hkey, rfl⟩, mem_paths_entryOf.mpr hfile⟩

theorem IsSound.catalog_disjoint (h : ledger.IsSound) : ledger.catalog.IsDisjoint := by
  intro path key other hkey hother
  obtain ⟨row, hrow, rfl⟩ := h.owns_iff.mp hkey
  obtain ⟨row', hrow', rfl⟩ := h.owns_iff.mp hother
  rw [Option.some.inj (hrow.symm.trans hrow')]

/-! ### The map after a change of rows -/

theorem filesOwned_erase {owner id : Nat} (hid : owner ≠ id) :
    (ledger.erase id).filesOwned owner = ledger.filesOwned owner := by
  rw [filesOwned, erase, List.filter_filter]
  refine List.filter_congr fun file _ => ?_
  by_cases hfile : file.releaseId = owner
  · simp [hfile, hid]
  · simp [hfile]

theorem entryOf_erase {row : ReleaseRow} {id : Nat} (hid : row.id ≠ id) :
    (ledger.erase id).entryOf row = ledger.entryOf row := by
  rw [entryOf_eq, filesOwned_erase hid, ← entryOf_eq]

theorem IsSound.catalog_erase (h : ledger.IsSound) {row : ReleaseRow}
    (hrow : row ∈ ledger.releases) :
    (ledger.erase row.id).catalog = ledger.catalog.unbind row.key := by
  funext key
  by_cases hkey : key = row.key
  · subst hkey
    rw [Catalog.unbind, Function.update_self]
    refine catalog_eq_none_iff.mpr fun other hother heq => ?_
    obtain ⟨hmem, hid⟩ := List.mem_filter.mp hother
    rw [h.eq_of_key hmem hrow heq] at hid
    exact absurd rfl (of_decide_eq_true hid)
  · rw [Catalog.unbind, Function.update_of_ne hkey]
    refine Option.ext fun entry => ?_
    rw [(h.erase row.id).catalog_eq_some_iff, h.catalog_eq_some_iff]
    constructor
    · rintro ⟨other, hother, hotherKey, hentry⟩
      obtain ⟨hmem, hid⟩ := List.mem_filter.mp hother
      rw [entryOf_erase (of_decide_eq_true hid)] at hentry
      exact ⟨other, hmem, hotherKey, hentry⟩
    · rintro ⟨other, hother, hotherKey, hentry⟩
      have hid : other.id ≠ row.id := by
        intro heq
        exact hkey (hotherKey.symm.trans (congrArg ReleaseRow.key (h.eq_of_id hother hrow heq)))
      refine ⟨other, List.mem_filter.mpr ⟨hother, decide_eq_true hid⟩, hotherKey, ?_⟩
      rw [entryOf_erase hid, hentry]

theorem IsSound.catalog_remove (h : ledger.IsSound) (name language : Text) :
    (ledger.remove name language).2.catalog = ledger.catalog.unbind ⟨name, language⟩ := by
  rw [Ledger.remove]
  cases hfind : ledger.find? name language with
  | none =>
      funext key
      by_cases hkey : key = ⟨name, language⟩
      · rw [hkey, Catalog.unbind, Function.update_self]
        exact catalog_eq_none_iff.mpr (find?_eq_none_iff.mp hfind)
      · rw [Catalog.unbind, Function.update_of_ne hkey]
  | some row =>
      obtain ⟨hrow, hkey⟩ := h.find?_eq_some_iff.mp hfind
      rw [← hkey]
      exact h.catalog_erase hrow

theorem fileRows_filter {releaseId id first : Nat} (paths : List Path) :
    (fileRows releaseId first paths).filter (fun file => file.releaseId = id) =
      if releaseId = id then fileRows releaseId first paths else [] := by
  split_ifs with hid
  · exact List.filter_eq_self.mpr fun file hfile =>
      decide_eq_true ((mem_fileRows hfile).1.trans hid)
  · exact List.filter_eq_nil_iff.mpr fun file hfile heq =>
      hid ((mem_fileRows hfile).1.symm.trans (of_decide_eq_true heq))

theorem filesOwned_insert {row : ReleaseRow} {recording : Recording}
    (hrow : row ∈ ledger.releases) :
    (ledger.insert recording).filesOwned row.id = ledger.filesOwned row.id := by
  have hid := Nat.ne_of_gt (id_lt_nextReleaseId hrow)
  rw [filesOwned, files_insert, List.filter_append, fileRows_filter, if_neg hid, List.append_nil,
    filesOwned]

/-- A release that is added owns the paths of its recording, each once. Its number may have been
used before, but no file of that time is left. -/
theorem IsSound.filesOwned_new (h : ledger.IsSound) (recording : Recording) :
    ((ledger.insert recording).filesOwned ledger.nextReleaseId).map FileRow.path =
      Text.distinct recording.files := by
  have hold : ledger.filesOwned ledger.nextReleaseId = [] :=
    List.filter_eq_nil_iff.mpr fun file hfile heq =>
      Nat.ne_of_lt (h.releaseId_lt hfile) (of_decide_eq_true heq)
  rw [filesOwned] at hold ⊢
  rw [files_insert, List.filter_append, hold, fileRows_filter, if_pos rfl, List.nil_append,
    map_path_fileRows]

theorem entryOf_insert {row : ReleaseRow} {recording : Recording} (hrow : row ∈ ledger.releases) :
    (ledger.insert recording).entryOf row = ledger.entryOf row := by
  rw [entryOf_eq, filesOwned_insert hrow, ← entryOf_eq]

theorem IsSound.entryOf_rowOf (h : ledger.IsSound) (recording : Recording) :
    (ledger.insert recording).entryOf (rowOf ledger.nextReleaseId recording) = recording.entry := by
  have hpaths : (Text.distinct recording.files).toFinset = recording.files.toFinset := by
    ext path
    rw [List.mem_toFinset, List.mem_toFinset, Text.mem_distinct]
  rw [entryOf_eq, rowOf, h.filesOwned_new, hpaths, Recording.entry]

theorem IsSound.catalog_insert (h : ledger.IsSound) {recording : Recording}
    (hkey : ∀ row ∈ ledger.releases, row.key ≠ recording.key)
    (hfree : ledger.clash? (Text.distinct recording.files) = none) :
    (ledger.insert recording).catalog = ledger.catalog.bind recording.key recording.entry := by
  have hsound := h.insert hkey hfree
  funext key
  by_cases heq : key = recording.key
  · subst heq
    rw [Catalog.bind, Function.update_self, hsound.catalog_eq_some_iff]
    exact ⟨_, List.mem_append_right _ (List.mem_singleton_self _), rfl, h.entryOf_rowOf recording⟩
  · rw [Catalog.bind, Function.update_of_ne heq]
    refine Option.ext fun entry => ?_
    rw [hsound.catalog_eq_some_iff, h.catalog_eq_some_iff, releases_insert]
    constructor
    · rintro ⟨row, hrow, hrowKey, hentry⟩
      rcases List.mem_append.mp hrow with hrow | hrow
      · rw [entryOf_insert hrow] at hentry
        exact ⟨row, hrow, hrowKey, hentry⟩
      · rw [List.mem_singleton.mp hrow] at hrowKey
        exact absurd hrowKey.symm heq
    · rintro ⟨row, hrow, hrowKey, hentry⟩
      refine ⟨row, List.mem_append_left _ hrow, hrowKey, ?_⟩
      rw [entryOf_insert hrow, hentry]

end Ledger

end SampleHarvest
