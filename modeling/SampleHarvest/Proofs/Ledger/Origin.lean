import Mathlib.Data.List.Induction
import SampleHarvest.Proofs.Ledger.Answers

/-!
# Where the rows of a ledger come from

A call leaves the rows alone, removes a release that is there, or records one. So a release is in the
ledger because of the last call that changed its key, which recorded it, and it owns the files of this
recording and no others. It does not matter what its number was used for before.
-/

namespace SampleHarvest

namespace Ledger

inductive Changes (key : ReleaseKey) : LedgerCall → LedgerAnswer → Prop
  | recorded {recording : Recording} {policy : Policy} {outcome : Outcome}
      (hkey : recording.key = key) (houtcome : outcome ≠ .duplicate) :
      Changes key (.record recording policy) (.recorded outcome)
  | removed : Changes key (.remove key) (.removed true)

def after (calls : List LedgerCall) : Ledger := (empty.answers calls).2

def answerAfter (calls : List LedgerCall) (call : LedgerCall) : LedgerAnswer :=
  ((after calls).answer call).1

/-- The recording is the last of these calls that changed the key of a release, and it gave the
release its row. -/
def InsertedBy (calls : List LedgerCall) (row : ReleaseRow) (recording : Recording) : Prop :=
  ∃ before policy later, calls = before ++ .record recording policy :: later ∧
    Changes row.key (.record recording policy) (answerAfter before (.record recording policy)) ∧
    row = rowOf row.id recording ∧
    row ∈ (after (before ++ [.record recording policy])).releases ∧
    ∀ front call back, later = front ++ call :: back →
      ¬Changes row.key call (answerAfter (before ++ .record recording policy :: front) call)

variable {ledger : Ledger}

/-! ### What a call does -/

/-- A call leaves the rows alone, removes a release that is there, or records one in the place of
what was recorded for its key. -/
theorem answer_cases (ledger : Ledger) (call : LedgerCall) :
    ((ledger.answer call).2 = ledger ∧ ∀ key, ¬Changes key call (ledger.answer call).1) ∨
    (∃ key, call = .remove key ∧
      ledger.answer call = (.removed true, (ledger.remove key.name key.language).2)) ∨
    ∃ recording policy outcome, call = .record recording policy ∧ outcome ≠ .duplicate ∧
      (ledger.remove recording.name recording.language).2.clash?
        (Text.distinct recording.files) = none ∧
      ledger.answer call = (.recorded outcome,
        (ledger.remove recording.name recording.language).2.insert recording) := by
  cases call with
  | init | isRecorded key | filesOf key | list filter? =>
      refine Or.inl ⟨rfl, fun key hchanges => ?_⟩
      cases hchanges
  | remove key =>
      cases hfind : ledger.find? key.name key.language with
      | none =>
          left
          rw [answer, Ledger.remove, hfind]
          refine ⟨rfl, fun key hchanges => ?_⟩
          cases hchanges
      | some row =>
          right; left
          refine ⟨key, rfl, ?_⟩
          rw [answer, Ledger.remove, hfind]
  | record recording policy =>
      rw [answer, record_eq]
      by_cases hstays : ledger.isRecorded recording.name recording.language ∧ policy = .reject
      · rw [if_pos hstays]
        refine Or.inl ⟨rfl, fun key hchanges => ?_⟩
        cases hchanges with
        | recorded _ houtcome => exact houtcome rfl
      rw [if_neg hstays]
      unfold Ledger.insertFresh
      cases hclash : (ledger.remove recording.name recording.language).2.clash?
          (Text.distinct recording.files) with
      | some clash =>
          refine Or.inl ⟨rfl, fun key hchanges => ?_⟩
          cases hchanges
      | none =>
          right; right
          refine ⟨recording, policy, _, rfl, ?_, hclash, rfl⟩
          split_ifs <;> decide

/-- After a call a release is one that was there, with the same files, and the call did not change
its key; or the call recorded it, with its files. -/
theorem IsSound.answer_row (h : ledger.IsSound) (call : LedgerCall) {row : ReleaseRow}
    (hrow : row ∈ (ledger.answer call).2.releases) :
    (row ∈ ledger.releases ∧ (ledger.answer call).2.filesOwned row.id = ledger.filesOwned row.id ∧
      ¬Changes row.key call (ledger.answer call).1) ∨
    ∃ recording policy, call = .record recording policy ∧
      Changes row.key call (ledger.answer call).1 ∧ row = rowOf row.id recording ∧
      ((ledger.answer call).2.filesOwned row.id).map FileRow.path =
        Text.distinct recording.files := by
  -- A release that a removal leaves has another key and keeps its files.
  have hremove : ∀ key : ReleaseKey, ∀ other ∈ (ledger.remove key.name key.language).2.releases,
      other ∈ ledger.releases ∧ other.key ≠ key ∧
        (ledger.remove key.name key.language).2.filesOwned other.id =
          ledger.filesOwned other.id := by
    intro key other hother
    have hkey := h.key_ne_of_mem_remove hother
    unfold Ledger.remove at hother ⊢
    cases hfind : ledger.find? key.name key.language with
    | none =>
        rw [hfind] at hother
        exact ⟨hother, hkey, rfl⟩
    | some found =>
        rw [hfind] at hother
        obtain ⟨hmem, hid⟩ := List.mem_filter.mp hother
        exact ⟨hmem, hkey, filesOwned_erase (of_decide_eq_true hid)⟩
  obtain ⟨hsame, hnone⟩ | ⟨key, rfl, hanswer⟩ |
    ⟨recording, policy, outcome, rfl, houtcome, hclash, hanswer⟩ := ledger.answer_cases call
  · rw [hsame] at hrow ⊢
    exact Or.inl ⟨hrow, rfl, hnone row.key⟩
  · rw [hanswer] at hrow ⊢
    obtain ⟨hmem, hkey, hfiles⟩ := hremove key row hrow
    refine Or.inl ⟨hmem, hfiles, fun hchanges => ?_⟩
    cases hchanges
    exact hkey rfl
  · rw [hanswer] at hrow ⊢
    dsimp only at hrow ⊢
    rw [releases_insert] at hrow
    rcases List.mem_append.mp hrow with hrow | hrow
    · obtain ⟨hmem, hkey, hfiles⟩ := hremove recording.key row hrow
      refine Or.inl ⟨hmem, (filesOwned_insert hrow).trans hfiles, fun hchanges => ?_⟩
      cases hchanges with
      | recorded hsame => exact hkey hsame.symm
    · obtain rfl := List.mem_singleton.mp hrow
      refine Or.inr ⟨recording, policy, rfl, .recorded rfl houtcome, rfl, ?_⟩
      exact (h.remove _ _).filesOwned_new recording

/-! ### Calls one after the other -/

theorem answers_append (ledger : Ledger) (calls more : List LedgerCall) :
    ledger.answers (calls ++ more) =
      ((ledger.answers calls).1 ++ ((ledger.answers calls).2.answers more).1,
        ((ledger.answers calls).2.answers more).2) := by
  induction calls generalizing ledger with
  | nil => rfl
  | cons call calls ih =>
      rw [List.cons_append, answers, answers]
      dsimp only
      rw [ih]
      rfl

theorem after_concat (calls : List LedgerCall) (call : LedgerCall) :
    after (calls ++ [call]) = ((after calls).answer call).2 := by
  unfold after
  rw [answers_append]
  rfl

theorem after_sound (calls : List LedgerCall) : (after calls).IsSound :=
  (empty_sound.run calls).2

/-- A later call that does not change the key leaves it with the recording that it has. -/
theorem InsertedBy.concat {calls : List LedgerCall} {row : ReleaseRow} {recording : Recording}
    (h : InsertedBy calls row recording) {call : LedgerCall}
    (hcall : ¬Changes row.key call (answerAfter calls call)) :
    InsertedBy (calls ++ [call]) row recording := by
  obtain ⟨before, policy, later, rfl, hchanges, hrow, hmem, hlater⟩ := h
  refine ⟨before, policy, later ++ [call], by simp, hchanges, hrow, hmem, ?_⟩
  intro front other back hsplit
  rcases List.eq_nil_or_concat back with rfl | ⟨back, last, rfl⟩
  · obtain ⟨rfl, heq⟩ := List.append_inj' hsplit rfl
    obtain rfl := List.singleton_inj.mp heq
    exact hcall
  · rw [List.concat_eq_append, ← List.cons_append, ← List.append_assoc] at hsplit
    exact hlater front other back (List.append_inj' hsplit rfl).1

/-- Every release was put there by the last call that changed its key, and owns the files of that
recording. -/
theorem exists_insertedBy (calls : List LedgerCall) {row : ReleaseRow}
    (hrow : row ∈ (after calls).releases) :
    ∃ recording, InsertedBy calls row recording ∧
      ((after calls).filesOwned row.id).map FileRow.path = Text.distinct recording.files := by
  induction calls using List.reverseRecOn generalizing row with
  | nil => cases hrow
  | append_singleton calls call ih =>
      rw [after_concat] at hrow ⊢
      obtain ⟨hmem, hfiles, hcall⟩ | ⟨recording, policy, rfl, hchanges, hnew, hpaths⟩ :=
        (after_sound calls).answer_row call hrow
      · obtain ⟨recording, hinserted, hpaths⟩ := ih hmem
        exact ⟨recording, hinserted.concat hcall, hfiles ▸ hpaths⟩
      · rw [← after_concat] at hrow
        refine ⟨recording, ⟨calls, policy, [], rfl, hchanges, hnew, hrow, ?_⟩, hpaths⟩
        intro front other back hsplit
        simp at hsplit

/-- **Ledger integrity.** Whatever calls are made from the empty ledger on, no two releases have one
key and no two files one path, the numbers of releases and those of files are different and begin at
one, and every file belongs to a release that is there. A release owns the paths of the recording
that put it there, each once, also if its number belonged to another release before. -/
theorem rows_fit_after (calls : List LedgerCall) :
    ((after calls).releases.map ReleaseRow.key).Nodup ∧
    ((after calls).files.map FileRow.path).Nodup ∧
    ((after calls).releases.map ReleaseRow.id).Nodup ∧
    ((after calls).files.map FileRow.id).Nodup ∧
    (∀ row ∈ (after calls).releases, 1 ≤ row.id) ∧
    (∀ file ∈ (after calls).files, 1 ≤ file.id) ∧
    (∀ file ∈ (after calls).files, ∃ row ∈ (after calls).releases, row.id = file.releaseId) ∧
    ∀ row ∈ (after calls).releases, ∃ recording, InsertedBy calls row recording ∧
      ((after calls).filesOwned row.id).map FileRow.path = Text.distinct recording.files := by
  have h := after_sound calls
  have hreleases : ((after calls).releases.map ReleaseRow.id).Nodup :=
    List.pairwise_map.mpr (h.releaseIds.imp Nat.ne_of_lt)
  have hfiles : ((after calls).files.map FileRow.id).Nodup :=
    List.pairwise_map.mpr (h.fileIds.imp Nat.ne_of_lt)
  exact ⟨h.keys, h.paths, hreleases, hfiles, h.releaseIds_pos, h.fileIds_pos, h.owned,
    fun _ => exists_insertedBy calls⟩

end Ledger

end SampleHarvest
