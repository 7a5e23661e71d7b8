import SampleHarvest.Ledger.Export
import SampleHarvest.Proofs.Ledger.Origin

/-!
# A snapshot is closed and exact

A snapshot is asked for in two questions. One is for the releases that pass a filter, the other for
the files that are joined to them: a file comes once for every such release that has the number it
names. The files of a single release are asked for by a join too.

The rows fit together, so no file names a number that is gone and none comes twice. The answers agree
with each other, and with the list of releases.
-/

namespace SampleHarvest

/-- The part of a snapshot that belongs to the releases of one language. -/
def LedgerExport.restrict (snapshot : LedgerExport) (language : Text) : LedgerExport :=
  let releases := snapshot.releases.filter fun release => release.language = language
  ⟨releases, snapshot.files.filter fun file =>
    releases.any fun release => release.id = file.releaseId⟩

namespace Ledger

/-- The join of files and releases: a file for every release of this kind that has the number it
names. -/
def joined (ledger : Ledger) (keeps : ReleaseRow → Bool) : List FileRow :=
  ledger.files.flatMap fun file =>
    (ledger.releases.filter fun row => keeps row && row.id = file.releaseId).map fun _ => file

variable {ledger : Ledger} {filter? : Option Text}

/-! ### Joins -/

/-- If nothing else in a list without repetition looks like an element, only this one is kept. -/
theorem filter_eq_singleton {α β : Type} [DecidableEq α] [DecidableEq β] {l : List α} {x : α}
    {f : α → β} (hl : l.Nodup) (hx : x ∈ l) (hf : ∀ y ∈ l, f y = f x → y = x) :
    (l.filter fun y => f y = f x) = [x] := by
  have hsame : (l.filter fun y => f y = f x) = l.filter fun y => y = x := by
    apply List.filter_congr
    intro y hy
    rw [decide_eq_decide]
    exact ⟨hf y hy, congrArg f⟩
  rw [hsame, List.filter_eq, List.count_eq_one_of_mem hl hx]
  rfl

theorem IsSound.filter_id (h : ledger.IsSound) {row : ReleaseRow} (hrow : row ∈ ledger.releases) :
    (ledger.releases.filter fun other => other.id = row.id) = [row] :=
  filter_eq_singleton (List.Nodup.of_map _ h.keys) hrow fun _ hother => h.eq_of_id hother hrow

/-- To put an element once or not at all is to keep it or not. -/
theorem flatMap_eq_filter {α : Type} {f : α → List α} {p : α → Bool} {l : List α}
    (h : ∀ x ∈ l, f x = if p x then [x] else []) : l.flatMap f = l.filter p := by
  induction l with
  | nil => rfl
  | cons x l ih =>
      obtain ⟨hx, hl⟩ := List.forall_mem_cons.mp h
      rw [List.flatMap_cons, hx, ih hl, List.filter_cons]
      split_ifs <;> rfl

/-- In a join every file comes once at most. It comes if the release that it belongs to is of the
kind. -/
theorem IsSound.joined_eq_filter (h : ledger.IsSound) {keeps : ReleaseRow → Bool}
    {p : FileRow → Bool}
    (hp : ∀ file ∈ ledger.files, ∀ row ∈ ledger.releases, row.id = file.releaseId →
      p file = keeps row) : ledger.joined keeps = ledger.files.filter p := by
  apply flatMap_eq_filter
  intro file hfile
  obtain ⟨row, hrow, hid⟩ := h.owned file hfile
  rw [hp file hfile row hrow hid, ← hid, ← List.filter_filter, h.filter_id hrow]
  cases hkeeps : keeps row <;> simp [hkeeps]

/-- Both questions of a snapshot, the second one with its join. -/
theorem IsSound.snapshot_eq (h : ledger.IsSound) (filter? : Option Text) :
    ledger.snapshot filter? =
      ⟨(ledger.releases.filter fun row => passes filter? row.language).map ExportedRelease.ofRow,
        (ledger.joined fun row => passes filter? row.language).map ExportedFile.ofRow⟩ := by
  rw [h.joined_eq_filter (p := fun file => (ledger.releases.filter fun row =>
    passes filter? row.language).any fun row => row.id = file.releaseId)]
  · rfl
  · intro file _ row hrow hid
    rw [← hid, Bool.eq_iff_iff, List.any_eq_true]
    constructor
    · rintro ⟨other, hother, hsame⟩
      obtain ⟨hmem, hpass⟩ := List.mem_filter.mp hother
      rwa [← h.eq_of_id hmem hrow (of_decide_eq_true hsame)]
    · exact fun hpass => ⟨row, List.mem_filter.mpr ⟨hrow, hpass⟩, decide_eq_true rfl⟩

/-- The question for the files of one release, with its join. -/
theorem IsSound.filesOf_eq (h : ledger.IsSound) (name language : Text) :
    ledger.filesOf name language =
      Text.sort ((ledger.joined fun row => row.name = name ∧ row.language = language).map
        FileRow.path) := by
  unfold filesOf
  cases hfind : ledger.find? name language with
  | none =>
      have hnone := List.find?_eq_none.mp hfind
      rw [h.joined_eq_filter (p := fun _ => false)]
      · rw [List.filter_false, List.map_nil, Text.sort, List.mergeSort_nil]
      · exact fun _ _ row hrow _ => (Bool.eq_false_iff.mpr (hnone row hrow)).symm
  | some row =>
      obtain ⟨hrow, hkey⟩ := h.find?_eq_some_iff.mp hfind
      rw [h.joined_eq_filter (p := fun file => file.releaseId = row.id)]
      intro file _ other hother hid
      rw [decide_eq_decide, ← hid]
      constructor
      · intro hsame
        rw [h.eq_of_id hother hrow hsame]
        exact ReleaseKey.mk.inj hkey
      · rintro ⟨rfl, rfl⟩
        rw [h.eq_of_key hother hrow hkey.symm]

/-! ### Snapshots -/

/-- Rows that are chosen after they were exported are rows that were chosen before. -/
theorem filter_exported {α β : Type} {shown : α → β} {p : β → Bool} {q : α → Bool} {rows : List α}
    (h : ∀ row ∈ rows, p (shown row) = q row) :
    (rows.map shown).filter p = (rows.filter q).map shown := by
  rw [List.filter_map]
  exact congrArg _ (List.filter_congr h)

theorem mem_snapshot_releases {release : ExportedRelease} :
    release ∈ (ledger.snapshot filter?).releases ↔
      ∃ row ∈ ledger.releases, passes filter? row.language ∧ ExportedRelease.ofRow row = release := by
  simp only [snapshot, List.mem_map, List.mem_filter, and_assoc]

theorem mem_snapshot_files {file : ExportedFile} :
    file ∈ (ledger.snapshot filter?).files ↔
      ∃ row ∈ ledger.releases, passes filter? row.language ∧
        ∃ owned ∈ ledger.files, owned.releaseId = row.id ∧ ExportedFile.ofRow owned = file := by
  simp only [snapshot, List.mem_map, List.mem_filter, List.any_eq_true, decide_eq_true_eq]
  constructor
  · rintro ⟨owned, ⟨howned, row, ⟨hrow, hpass⟩, hid⟩, rfl⟩
    exact ⟨row, hrow, hpass, owned, howned, hid.symm, rfl⟩
  · rintro ⟨row, hrow, hpass, owned, howned, hid, rfl⟩
    exact ⟨owned, ⟨howned, row, ⟨hrow, hpass⟩, hid.symm⟩, rfl⟩

/-- Without a filter nothing is left out. -/
theorem IsSound.snapshot_none (h : ledger.IsSound) :
    ledger.snapshot none =
      ⟨ledger.releases.map ExportedRelease.ofRow, ledger.files.map ExportedFile.ofRow⟩ := by
  have hfiles : (ledger.joined fun row => passes none row.language) =
      ledger.files.filter fun _ => true := h.joined_eq_filter fun _ _ _ _ _ => rfl
  rw [h.snapshot_eq, hfiles, List.filter_true]
  simp only [passes, Option.all_none, List.filter_true]

theorem IsSound.snapshot_ascending (h : ledger.IsSound) (filter? : Option Text) :
    ((ledger.snapshot filter?).releases.Pairwise fun a b => a.id < b.id) ∧
      (ledger.snapshot filter?).files.Pairwise fun a b => a.id < b.id := by
  constructor
  · exact List.pairwise_map.mpr ((h.releaseIds.filter _).imp Int.ofNat_lt.mpr)
  · exact List.pairwise_map.mpr ((h.fileIds.filter _).imp Int.ofNat_lt.mpr)

theorem IsSound.snapshot_closed (h : ledger.IsSound) {file : ExportedFile}
    (hfile : file ∈ (ledger.snapshot filter?).files) :
    ∃ release, ((ledger.snapshot filter?).releases.filter fun release =>
      release.id = file.releaseId) = [release] := by
  obtain ⟨row, hrow, hpass, owned, -, hid, rfl⟩ := mem_snapshot_files.mp hfile
  refine ⟨ExportedRelease.ofRow row, ?_⟩
  rw [snapshot, filter_exported (q := fun other => other.id = row.id)]
  · rw [List.filter_comm, h.filter_id hrow, List.filter_singleton, hpass]
    rfl
  · intro other _
    rw [decide_eq_decide, ← hid]
    exact Int.ofNat_inj

/-- The snapshot for a language is the part of the whole one that belongs to it. -/
theorem IsSound.snapshot_some (h : ledger.IsSound) (language : Text) :
    ledger.snapshot (some language) = (ledger.snapshot none).restrict language := by
  have hreleases : (ledger.releases.map ExportedRelease.ofRow).filter
      (fun release => release.language = language) =
        (ledger.releases.filter fun row => passes (some language) row.language).map
          ExportedRelease.ofRow := by
    apply filter_exported
    intro row _
    rw [Bool.eq_iff_iff, passes_iff, decide_eq_true_eq]
    simp [ExportedRelease.ofRow]
  rw [h.snapshot_none, LedgerExport.restrict]
  dsimp only
  rw [hreleases, snapshot]
  congr 1
  refine (filter_exported fun file _ => ?_).symm
  rw [List.any_map, Bool.eq_iff_iff, List.any_eq_true, List.any_eq_true]
  simp only [Function.comp_apply, decide_eq_true_eq]
  exact exists_congr fun row => and_congr_right fun _ => Int.ofNat_inj

/-- The files that a snapshot tells of a release are the files of that release. -/
theorem IsSound.filesOf_eq_snapshot (h : ledger.IsSound) {release : ExportedRelease}
    (hrelease : release ∈ (ledger.snapshot filter?).releases) :
    Text.sort (((ledger.snapshot filter?).files.filter fun file =>
        file.releaseId = release.id).map ExportedFile.path) =
      ledger.filesOf release.name release.language := by
  obtain ⟨row, hrow, hpass, rfl⟩ := mem_snapshot_releases.mp hrelease
  have hfind : ledger.find? row.name row.language = some row :=
    h.find?_eq_some_iff.mpr ⟨hrow, rfl⟩
  have hkept : (ledger.files.filter fun file => (ledger.releases.filter fun row =>
      passes filter? row.language).any fun row => row.id = file.releaseId).filter
        (fun file => file.releaseId = row.id) = ledger.filesOwned row.id := by
    rw [filesOwned, List.filter_filter]
    apply List.filter_congr
    intro file _
    rw [Bool.and_eq_left_iff_imp]
    intro hid
    have hmem : row ∈ ledger.releases.filter fun row => passes filter? row.language :=
      List.mem_filter.mpr ⟨hrow, hpass⟩
    exact List.any_eq_true.mpr ⟨row, hmem, decide_eq_true (of_decide_eq_true hid).symm⟩
  rw [snapshot, filter_exported (q := fun file => file.releaseId = row.id), hkept, List.map_map]
  · show _ = ledger.filesOf row.name row.language
    rw [filesOf, hfind]
    rfl
  · intro file _
    rw [decide_eq_decide]
    exact Int.ofNat_inj

/-- The list tells the releases of a snapshot, in another order. -/
theorem snapshot_releases_perm (ledger : Ledger) (filter? : Option Text) :
    (ledger.snapshot filter?).releases.Perm ((ledger.list filter?).map ExportedRelease.ofRow) :=
  ((List.mergeSort_perm _ _).map ExportedRelease.ofRow).symm

/-- **Snapshots.** Whatever calls are made from the empty ledger on, a snapshot for a filter holds the
releases that pass it and the files joined to them, each in the order of the numbers. Every file has
its release in the snapshot, once. A snapshot for a language is the part of the whole one that belongs
to the language, and the whole one leaves no row out. The files that are told of a release are those
that are named for its key, and the releases are the rows that are listed. -/
theorem snapshot_closed_exact (calls : List LedgerCall) (filter? : Option Text) :
    let ledger := after calls
    let snapshot := ledger.snapshot filter?
    let keeps := fun row : ReleaseRow => passes filter? row.language
    snapshot.releases = (ledger.releases.filter keeps).map ExportedRelease.ofRow ∧
    snapshot.files = (ledger.joined keeps).map ExportedFile.ofRow ∧
    (snapshot.releases.Pairwise fun a b => a.id < b.id) ∧
    (snapshot.files.Pairwise fun a b => a.id < b.id) ∧
    (∀ file ∈ snapshot.files, ∃ release, (snapshot.releases.filter fun release =>
      release.id = file.releaseId) = [release]) ∧
    (∀ language, filter? = some language →
      snapshot = (ledger.snapshot none).restrict language) ∧
    (filter? = none → snapshot =
      ⟨ledger.releases.map ExportedRelease.ofRow, ledger.files.map ExportedFile.ofRow⟩) ∧
    (∀ release ∈ snapshot.releases,
      Text.sort ((snapshot.files.filter fun file => file.releaseId = release.id).map
        ExportedFile.path) = ledger.filesOf release.name release.language) ∧
    (∀ name language, ledger.filesOf name language =
      Text.sort ((ledger.joined fun row => row.name = name ∧ row.language = language).map
        FileRow.path)) ∧
    snapshot.releases.Perm ((ledger.list filter?).map ExportedRelease.ofRow) := by
  intro ledger snapshot keeps
  have h : ledger.IsSound := after_sound calls
  obtain ⟨hreleases, hfiles⟩ := h.snapshot_ascending filter?
  refine ⟨rfl, congrArg LedgerExport.files (h.snapshot_eq filter?), hreleases, hfiles,
    fun _ => h.snapshot_closed, ?_, ?_, fun _ => h.filesOf_eq_snapshot, h.filesOf_eq,
    ledger.snapshot_releases_perm filter?⟩
  · rintro language rfl
    exact h.snapshot_some language
  · rintro rfl
    exact h.snapshot_none

end Ledger

end SampleHarvest
