import Mathlib.Data.List.Nodup
import SampleHarvest.Ledger.Basic
import SampleHarvest.Proofs.Text.Order

/-!
# The rows of a ledger fit together

No two releases have one key, no two files have one path, row numbers grow from one on, and every
file belongs to a release that is there. Numbers are given out again once their rows are gone; this
does no harm, because the files of a release go with it.
-/

namespace SampleHarvest

structure ReleaseKey where
  name : Text
  language : Text
  deriving DecidableEq

def ReleaseRow.key (row : ReleaseRow) : ReleaseKey := ⟨row.name, row.language⟩

def Recording.key (recording : Recording) : ReleaseKey := ⟨recording.name, recording.language⟩

namespace Ledger

/-- The rows of a ledger fit together. -/
structure IsSound (ledger : Ledger) : Prop where
  /-- The releases stand in the order of their numbers. -/
  releaseIds : ledger.releases.Pairwise fun a b => a.id < b.id
  /-- The files stand in the order of their numbers. -/
  fileIds : ledger.files.Pairwise fun a b => a.id < b.id
  releaseIds_pos : ∀ row ∈ ledger.releases, 1 ≤ row.id
  fileIds_pos : ∀ file ∈ ledger.files, 1 ≤ file.id
  keys : (ledger.releases.map ReleaseRow.key).Nodup
  paths : (ledger.files.map FileRow.path).Nodup
  owned : ∀ file ∈ ledger.files, ∃ row ∈ ledger.releases, row.id = file.releaseId

theorem empty_sound : empty.IsSound where
  releaseIds := List.Pairwise.nil
  fileIds := List.Pairwise.nil
  releaseIds_pos := fun _ h => absurd h List.not_mem_nil
  fileIds_pos := fun _ h => absurd h List.not_mem_nil
  keys := List.nodup_nil
  paths := List.nodup_nil
  owned := fun _ h => absurd h List.not_mem_nil

/-! ### Row numbers -/

theorem lt_nextId {ids : List Nat} {i : Nat} (h : i ∈ ids) : i < nextId ids := by
  suffices hmax : ∀ least, least ≤ ids.foldl max least ∧ ∀ i ∈ ids, i ≤ ids.foldl max least from
    Nat.lt_succ_of_le ((hmax 0).2 i h)
  clear h i
  induction ids with
  | nil => simp
  | cons j ids ih =>
      intro least
      obtain ⟨hleast, hmem⟩ := ih (max least j)
      rw [List.foldl_cons]
      refine ⟨by omega, fun i hi => ?_⟩
      rcases List.mem_cons.mp hi with rfl | hi
      · omega
      · exact hmem i hi

theorem one_le_nextId (ids : List Nat) : 1 ≤ nextId ids := Nat.le_add_left 1 _

theorem map_path_fileRows (releaseId first : Nat) (paths : List Path) :
    (fileRows releaseId first paths).map FileRow.path = paths := by
  induction paths generalizing first with
  | nil => rfl
  | cons path paths ih => rw [fileRows, List.map_cons, ih]

theorem mem_fileRows {releaseId first : Nat} {paths : List Path} {file : FileRow}
    (h : file ∈ fileRows releaseId first paths) :
    file.releaseId = releaseId ∧ first ≤ file.id ∧ file.path ∈ paths := by
  induction paths generalizing first with
  | nil => cases h
  | cons path paths ih =>
      rcases List.mem_cons.mp h with rfl | h
      · exact ⟨rfl, Nat.le_refl _, List.mem_cons_self⟩
      · obtain ⟨hrelease, hfirst, hpath⟩ := ih h
        exact ⟨hrelease, by omega, List.mem_cons_of_mem _ hpath⟩

theorem fileRows_ascending (releaseId first : Nat) (paths : List Path) :
    (fileRows releaseId first paths).Pairwise fun a b => a.id < b.id := by
  induction paths generalizing first with
  | nil => exact List.Pairwise.nil
  | cons path paths ih =>
      refine List.pairwise_cons.mpr ⟨fun file hfile => ?_, ih (first + 1)⟩
      exact (mem_fileRows hfile).2.1

/-! ### Looking up rows -/

variable {ledger : Ledger}

theorem IsSound.eq_of_key (h : ledger.IsSound) {a b : ReleaseRow} (ha : a ∈ ledger.releases)
    (hb : b ∈ ledger.releases) (hkey : a.key = b.key) : a = b :=
  List.inj_on_of_nodup_map h.keys ha hb hkey

theorem IsSound.eq_of_id (h : ledger.IsSound) {a b : ReleaseRow} (ha : a ∈ ledger.releases)
    (hb : b ∈ ledger.releases) (hid : a.id = b.id) : a = b := by
  have hids : (ledger.releases.map ReleaseRow.id).Nodup :=
    List.pairwise_map.mpr (h.releaseIds.imp fun hlt => Nat.ne_of_lt hlt)
  exact List.inj_on_of_nodup_map hids ha hb hid

theorem IsSound.eq_of_path (h : ledger.IsSound) {a b : FileRow} (ha : a ∈ ledger.files)
    (hb : b ∈ ledger.files) (hpath : a.path = b.path) : a = b :=
  List.inj_on_of_nodup_map h.paths ha hb hpath

theorem find?_eq_none_iff {name language : Text} :
    ledger.find? name language = none ↔
      ∀ row ∈ ledger.releases, row.key ≠ ⟨name, language⟩ := by
  simp only [find?, List.find?_eq_none, decide_eq_true_eq, ReleaseRow.key, ne_eq,
    ReleaseKey.mk.injEq]

/-- In a list where one element at most passes a test, it is found exactly if it is there. -/
theorem find?_eq_some_iff_of_unique {α : Type} {p : α → Bool} {l : List α} {x : α}
    (hunique : ∀ a ∈ l, ∀ b ∈ l, p a → p b → a = b) : l.find? p = some x ↔ x ∈ l ∧ p x := by
  refine ⟨fun h => ⟨List.mem_of_find?_eq_some h, List.find?_some h⟩, fun ⟨hmem, hp⟩ => ?_⟩
  cases hfind : l.find? p with
  | none => exact absurd hp (List.find?_eq_none.mp hfind x hmem)
  | some other =>
      rw [hunique other (List.mem_of_find?_eq_some hfind) x hmem (List.find?_some hfind) hp]

theorem IsSound.find?_eq_some_iff (h : ledger.IsSound) {name language : Text} {row : ReleaseRow} :
    ledger.find? name language = some row ↔
      row ∈ ledger.releases ∧ row.key = ⟨name, language⟩ := by
  rw [find?, find?_eq_some_iff_of_unique]
  · simp only [decide_eq_true_eq, ReleaseRow.key, ReleaseKey.mk.injEq]
  · simp only [decide_eq_true_eq]
    rintro a ha b hb ⟨hname, hlanguage⟩ ⟨hname', hlanguage'⟩
    refine h.eq_of_key ha hb ?_
    rw [ReleaseRow.key, ReleaseRow.key, hname, hlanguage, hname', hlanguage']

theorem IsSound.owner?_eq_some_iff (h : ledger.IsSound) {path : Path} {row : ReleaseRow} :
    ledger.owner? path = some row ↔
      row ∈ ledger.releases ∧
        ∃ file ∈ ledger.files, file.path = path ∧ file.releaseId = row.id := by
  have hfile : ∀ file : FileRow, ledger.files.find? (fun row => row.path = path) = some file ↔
      file ∈ ledger.files ∧ file.path = path := by
    intro file
    rw [find?_eq_some_iff_of_unique, decide_eq_true_eq]
    simp only [decide_eq_true_eq]
    exact fun a ha b hb hapath hbpath => h.eq_of_path ha hb (hapath.trans hbpath.symm)
  have hrow : ∀ id, ledger.releases.find? (fun row => row.id = id) = some row ↔
      row ∈ ledger.releases ∧ row.id = id := by
    intro id
    rw [find?_eq_some_iff_of_unique, decide_eq_true_eq]
    simp only [decide_eq_true_eq]
    exact fun a ha b hb haid hbid => h.eq_of_id ha hb (haid.trans hbid.symm)
  simp only [owner?, Option.bind_eq_bind, Option.bind_eq_some_iff, hfile, hrow]
  constructor
  · rintro ⟨file, ⟨hmem, hpath⟩, hrelease, hid⟩
    exact ⟨hrelease, file, hmem, hpath, hid.symm⟩
  · rintro ⟨hrelease, file, hmem, hpath, hid⟩
    exact ⟨file, ⟨hmem, hpath⟩, hrelease, hid.symm⟩

theorem IsSound.owner?_eq_none_iff (h : ledger.IsSound) {path : Path} :
    ledger.owner? path = none ↔ ∀ file ∈ ledger.files, file.path ≠ path := by
  constructor
  · intro hnone file hfile hpath
    obtain ⟨row, hrow, hid⟩ := h.owned file hfile
    have hsome := h.owner?_eq_some_iff.mpr ⟨hrow, file, hfile, hpath, hid.symm⟩
    rw [hnone] at hsome
    cases hsome
  · intro hfree
    refine Option.eq_none_iff_forall_ne_some.mpr fun row hrow => ?_
    obtain ⟨-, file, hfile, hpath, -⟩ := h.owner?_eq_some_iff.mp hrow
    exact hfree file hfile hpath

theorem clash?_eq_none_iff {paths : List Path} :
    ledger.clash? paths = none ↔ ∀ path ∈ paths, ledger.owner? path = none := by
  simp only [clash?, List.findSome?_eq_none_iff, Option.map_eq_none_iff]

/-! ### Erasing and inserting -/

theorem IsSound.erase (h : ledger.IsSound) (id : Nat) : (ledger.erase id).IsSound where
  releaseIds := h.releaseIds.filter _
  fileIds := h.fileIds.filter _
  releaseIds_pos row hrow := h.releaseIds_pos row (List.mem_of_mem_filter hrow)
  fileIds_pos file hfile := h.fileIds_pos file (List.mem_of_mem_filter hfile)
  keys := h.keys.sublist (List.filter_sublist.map _)
  paths := h.paths.sublist (List.filter_sublist.map _)
  owned file hfile := by
    obtain ⟨hmem, hother⟩ := List.mem_filter.mp hfile
    obtain ⟨row, hrow, hid⟩ := h.owned file hmem
    refine ⟨row, List.mem_filter.mpr ⟨hrow, ?_⟩, hid⟩
    rw [hid]
    exact hother

/-- The row that a recording gets under a number. -/
def rowOf (id : Nat) (recording : Recording) : ReleaseRow :=
  { id
    name := recording.name
    language := recording.language
    tag := recording.tag
    package := recording.package
    version := recording.version
    published := recording.published.seconds }

/-- The number that the next release gets. -/
def nextReleaseId (ledger : Ledger) : Nat := nextId (ledger.releases.map ReleaseRow.id)

theorem releases_insert (ledger : Ledger) (recording : Recording) :
    (ledger.insert recording).releases =
      ledger.releases ++ [rowOf ledger.nextReleaseId recording] := rfl

theorem files_insert (ledger : Ledger) (recording : Recording) :
    (ledger.insert recording).files =
      ledger.files ++ fileRows ledger.nextReleaseId (nextId (ledger.files.map FileRow.id))
        (Text.distinct recording.files) := rfl

theorem id_lt_nextReleaseId {row : ReleaseRow} (h : row ∈ ledger.releases) :
    row.id < ledger.nextReleaseId :=
  lt_nextId (List.mem_map_of_mem h)

theorem IsSound.releaseId_lt (h : ledger.IsSound) {file : FileRow} (hfile : file ∈ ledger.files) :
    file.releaseId < ledger.nextReleaseId := by
  obtain ⟨row, hrow, hid⟩ := h.owned file hfile
  exact hid ▸ id_lt_nextReleaseId hrow

/-- A release with a new key and with files that nobody owns fits into a ledger. -/
theorem IsSound.insert (h : ledger.IsSound) {recording : Recording}
    (hkey : ∀ row ∈ ledger.releases, row.key ≠ recording.key)
    (hfree : ledger.clash? (Text.distinct recording.files) = none) :
    (ledger.insert recording).IsSound where
  releaseIds := by
    rw [releases_insert]
    refine List.pairwise_append.mpr ⟨h.releaseIds, List.pairwise_singleton _ _, ?_⟩
    intro row hrow new hnew
    rw [List.mem_singleton.mp hnew]
    exact id_lt_nextReleaseId hrow
  fileIds := by
    rw [files_insert]
    refine List.pairwise_append.mpr ⟨h.fileIds, fileRows_ascending _ _ _, ?_⟩
    intro file hfile new hnew
    exact Nat.lt_of_lt_of_le (lt_nextId (List.mem_map_of_mem hfile)) (mem_fileRows hnew).2.1
  releaseIds_pos := by
    rw [releases_insert]
    intro row hrow
    rcases List.mem_append.mp hrow with hrow | hrow
    · exact h.releaseIds_pos row hrow
    · rw [List.mem_singleton.mp hrow]
      exact one_le_nextId _
  fileIds_pos := by
    rw [files_insert]
    intro file hfile
    rcases List.mem_append.mp hfile with hfile | hfile
    · exact h.fileIds_pos file hfile
    · exact Nat.le_trans (one_le_nextId _) (mem_fileRows hfile).2.1
  keys := by
    rw [releases_insert, List.map_append]
    refine List.nodup_append.mpr ⟨h.keys, List.pairwise_singleton _ _, ?_⟩
    intro key hold new hnew heq
    obtain ⟨row, hrow, rfl⟩ := List.mem_map.mp hold
    exact hkey row hrow (heq.trans (List.mem_singleton.mp hnew))
  paths := by
    rw [files_insert, List.map_append, map_path_fileRows]
    refine List.nodup_append.mpr ⟨h.paths, Text.nodup_distinct _, ?_⟩
    intro path hold new hnew heq
    obtain ⟨file, hfile, rfl⟩ := List.mem_map.mp hold
    exact h.owner?_eq_none_iff.mp (clash?_eq_none_iff.mp hfree new hnew) file hfile heq
  owned := by
    rw [files_insert, releases_insert]
    intro file hfile
    rcases List.mem_append.mp hfile with hfile | hfile
    · obtain ⟨row, hrow, hid⟩ := h.owned file hfile
      exact ⟨row, List.mem_append_left _ hrow, hid⟩
    · exact ⟨_, List.mem_append_right _ (List.mem_singleton_self _), (mem_fileRows hfile).1.symm⟩

/-! ### Removing and recording -/

theorem remove_eq (ledger : Ledger) (name language : Text) :
    ledger.remove name language =
      (ledger.isRecorded name language, (ledger.remove name language).2) := by
  rw [remove, isRecorded]
  cases ledger.find? name language <;> rfl

theorem IsSound.remove (h : ledger.IsSound) (name language : Text) :
    (ledger.remove name language).2.IsSound := by
  rw [Ledger.remove]
  cases ledger.find? name language with
  | none => exact h
  | some row => exact h.erase row.id

theorem IsSound.key_ne_of_mem_remove (h : ledger.IsSound) {name language : Text} {row : ReleaseRow}
    (hrow : row ∈ (ledger.remove name language).2.releases) : row.key ≠ ⟨name, language⟩ := by
  rw [Ledger.remove] at hrow
  cases hfind : ledger.find? name language with
  | none =>
      rw [hfind] at hrow
      exact find?_eq_none_iff.mp hfind row hrow
  | some found =>
      rw [hfind] at hrow
      obtain ⟨hmem, hid⟩ := List.mem_filter.mp hrow
      obtain ⟨hfound, hkey⟩ := h.find?_eq_some_iff.mp hfind
      intro heq
      rw [h.eq_of_key hmem hfound (heq.trans hkey.symm)] at hid
      exact absurd rfl (of_decide_eq_true hid)

/-- A recording that is not a refused duplicate removes the release and adds the new one. -/
theorem record_eq (ledger : Ledger) (recording : Recording) (policy : Policy) :
    ledger.record recording policy =
      if ledger.isRecorded recording.name recording.language ∧ policy = .reject then
        .ok (.duplicate, ledger)
      else
        (ledger.remove recording.name recording.language).2.insertFresh recording
          (if ledger.isRecorded recording.name recording.language then .replaced
          else .written) := by
  cases hfind : ledger.find? recording.name recording.language with
  | none => simp [record, Ledger.remove, isRecorded, hfind]
  | some row => cases policy <;> simp [record, Ledger.remove, isRecorded, hfind]

theorem IsSound.insertFresh (h : ledger.IsSound) {recording : Recording} {outcome result : Outcome}
    {next : Ledger} (hkey : ∀ row ∈ ledger.releases, row.key ≠ recording.key)
    (hnext : ledger.insertFresh recording outcome = .ok (result, next)) : next.IsSound := by
  rw [Ledger.insertFresh] at hnext
  cases hclash : ledger.clash? (Text.distinct recording.files) with
  | some clash =>
      rw [hclash] at hnext
      cases hnext
  | none =>
      rw [hclash] at hnext
      cases hnext
      exact h.insert hkey hclash

theorem IsSound.record (h : ledger.IsSound) {recording : Recording} {policy : Policy}
    {outcome : Outcome} {next : Ledger}
    (hnext : ledger.record recording policy = .ok (outcome, next)) : next.IsSound := by
  rw [record_eq] at hnext
  split_ifs at hnext
  · cases hnext
    exact h
  all_goals exact (h.remove _ _).insertFresh (fun _ => h.key_ne_of_mem_remove) hnext

end Ledger

end SampleHarvest
