import SampleHarvest.Proofs.Ledger.Answers
import SampleHarvest.Proofs.Ledger.Traces

/-!
# What a recording leaves

A recording that goes through takes out what was recorded under its key and adds the release with
its files. So the release owns exactly these files, the rows of all others are those from before,
and the same recording made again leads to the same rows, with the same numbers.
-/

namespace SampleHarvest

namespace Text

/-- Texts that are all different are all kept. -/
theorem distinct_of_nodup {texts : List Text} (h : texts.Nodup) : distinct texts = texts := by
  suffices hall : ∀ seen : List Text, (seen ++ texts).Nodup →
      texts.foldl (fun seen t => if t ∈ seen then seen else seen ++ [t]) seen = seen ++ texts from
    hall [] h
  clear h
  induction texts with
  | nil => simp
  | cons t texts ih =>
      intro seen hseen
      rw [List.append_cons] at hseen
      have hnew : t ∉ seen := fun hmem =>
        (List.nodup_append.mp (List.nodup_append.mp hseen).1).2.2 t hmem t (List.mem_singleton_self t) rfl
      rw [List.foldl_cons, if_neg hnew, ih _ hseen, List.append_assoc]
      rfl

end Text

namespace Ledger

variable {ledger next : Ledger} {recording : Recording} {policy : Policy} {outcome : Outcome}

def without (ledger : Ledger) (recording : Recording) : Ledger :=
  (ledger.remove recording.name recording.language).2

theorem IsSound.without (h : ledger.IsSound) (recording : Recording) :
    (ledger.without recording).IsSound :=
  h.remove recording.name recording.language

theorem IsSound.find?_without (h : ledger.IsSound) (recording : Recording) :
    (ledger.without recording).find? recording.name recording.language = none :=
  find?_eq_none_iff.mpr fun _ => h.key_ne_of_mem_remove

/-- A recording that goes through inserts the release in the place of what was recorded. -/
theorem record_ok_iff
    (hskips : ¬(ledger.isRecorded recording.name recording.language ∧ policy = .reject)) :
    ledger.record recording policy = .ok (outcome, next) ↔
      (ledger.without recording).clash? (Text.distinct recording.files) = none ∧
      next = (ledger.without recording).insert recording ∧
      outcome = if ledger.isRecorded recording.name recording.language then .replaced
        else .written := by
  rw [record_eq, if_neg hskips, ← Ledger.without, insertFresh]
  cases (ledger.without recording).clash? (Text.distinct recording.files) with
  | some clash => simp
  | none =>
      constructor
      · intro hrecord
        cases hrecord
        exact ⟨rfl, rfl, rfl⟩
      · rintro ⟨-, rfl, rfl⟩
        rfl

theorem isRecorded_insert (h : ledger.find? recording.name recording.language = none) :
    (ledger.insert recording).isRecorded recording.name recording.language := by
  rw [isRecorded, find?_insert h]
  rfl

/-- A release that is added owns the files of its recording, in the order of their bytes. -/
theorem IsSound.filesOf_insert (h : ledger.IsSound)
    (habsent : ledger.find? recording.name recording.language = none) :
    (ledger.insert recording).filesOf recording.name recording.language =
      Text.sort (Text.distinct recording.files) := by
  have howned := h.filesOwned_new recording
  rw [filesOf, find?_insert habsent]
  exact congrArg Text.sort howned

theorem IsSound.without_insert (h : ledger.IsSound)
    (habsent : ledger.find? recording.name recording.language = none) :
    (ledger.insert recording).without recording = ledger := by
  rw [Ledger.without, h.remove_insert habsent]

/-- After a recording that goes through, the release owns exactly its files, in the order of their
bytes. -/
theorem IsSound.filesOf_record (h : ledger.IsSound)
    (hskips : ¬(ledger.isRecorded recording.name recording.language ∧ policy = .reject))
    (hrecord : ledger.record recording policy = .ok (outcome, next))
    (hfiles : recording.files.Nodup) :
    (next.filesOf recording.name recording.language).Perm recording.files ∧
      (next.filesOf recording.name recording.language).Pairwise fun a b =>
        Bytes.IsBefore (Utf8.encode a) (Utf8.encode b) := by
  obtain ⟨-, rfl, -⟩ := (record_ok_iff hskips).mp hrecord
  have hsort := (h.without recording).filesOf_insert (h.find?_without recording)
  rw [Text.distinct_of_nodup hfiles] at hsort
  rw [hsort]
  have hperm := Text.sort_perm recording.files
  refine ⟨hperm, ?_⟩
  have hstrict := (Text.pairwise_sort recording.files).and (hperm.nodup_iff.mpr hfiles)
  exact hstrict.imp fun ⟨hle, hne⟩ => Utf8.encode_isBefore hle hne

/-- After a recording that goes through, all other releases have the rows from before. -/
theorem IsSound.without_record (h : ledger.IsSound)
    (hskips : ¬(ledger.isRecorded recording.name recording.language ∧ policy = .reject))
    (hrecord : ledger.record recording policy = .ok (outcome, next)) :
    next.without recording = ledger.without recording := by
  obtain ⟨-, rfl, -⟩ := (record_ok_iff hskips).mp hrecord
  exact (h.without recording).without_insert (h.find?_without recording)

/-- A recording that went through and is made again, in the place of what it recorded, leads to the
rows that are there. -/
theorem IsSound.record_again (h : ledger.IsSound)
    (hskips : ¬(ledger.isRecorded recording.name recording.language ∧ policy = .reject))
    (hrecord : ledger.record recording policy = .ok (outcome, next)) :
    next.record recording .replace = .ok (.replaced, next) := by
  obtain ⟨hfree, rfl, -⟩ := (record_ok_iff hskips).mp hrecord
  have habsent := h.find?_without recording
  refine (record_ok_iff (by simp)).mpr ?_
  rw [(h.without recording).without_insert habsent, if_pos (isRecorded_insert habsent)]
  exact ⟨hfree, rfl, rfl⟩

end Ledger

end SampleHarvest
