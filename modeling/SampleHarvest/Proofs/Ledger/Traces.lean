import SampleHarvest.Ledger.Export
import SampleHarvest.Proofs.Ledger.Origin
import SampleHarvest.Proofs.Ledger.Transaction

/-!
# Calls that leave no trace

A recording that is refused gives up the rows that it has touched, the rows of a replaced release
among them. So does one that finds its release, and a removal that finds nothing. A release that is
recorded and at once removed takes its rows along, and the numbers for the next rows are taken from
those that are left.

After such calls the rows are the same as before, with their numbers. So nothing that is asked later
on can tell whether the calls were made.
-/

namespace SampleHarvest

/-- What can be asked of a ledger if the numbers of its rows are told as well. -/
inductive RowCall where
  | call (call : LedgerCall)
  /-- To name the rows of the releases of one language, or all. -/
  | rows (filter? : Option Text)
  /-- To make an export for one language, or all. -/
  | snapshot (filter? : Option Text)

/-- What a ledger answers if the numbers of its rows are told as well. -/
inductive RowAnswer where
  | answer (answer : LedgerAnswer)
  | rows (rows : List ReleaseRow)
  | snapshot (snapshot : LedgerExport)

namespace Ledger

def tell (ledger : Ledger) : RowCall → RowAnswer × Ledger
  | .call call =>
    let (answer, next) := ledger.answer call
    (.answer answer, next)
  | .rows filter? => (.rows (ledger.list filter?), ledger)
  | .snapshot filter? => (.snapshot (ledger.snapshot filter?), ledger)

/-- What a ledger tells to one call after the other, and the ledger in the end. -/
def tells (ledger : Ledger) : List RowCall → List RowAnswer × Ledger
  | [] => ([], ledger)
  | call :: calls =>
    let (answer, next) := ledger.tell call
    let (rest, last) := next.tells calls
    (answer :: rest, last)

/-- Calls that come to nothing on this ledger, with their answers. -/
inductive IsIneffective (ledger : Ledger) : List RowCall → List RowAnswer → Prop
  /-- A recording finds its release there and leaves it. -/
  | duplicate {recording : Recording} {policy : Policy}
      (hanswer : (ledger.answer (.record recording policy)).1 = .recorded .duplicate) :
      IsIneffective ledger [.call (.record recording policy)] [.answer (.recorded .duplicate)]
  | refused {recording : Recording} {policy : Policy} {clash : Clash}
      (hanswer : (ledger.answer (.record recording policy)).1 = .refused clash) :
      IsIneffective ledger [.call (.record recording policy)] [.answer (.refused clash)]
  | absent {key : ReleaseKey} (hanswer : (ledger.answer (.remove key)).1 = .removed false) :
      IsIneffective ledger [.call (.remove key)] [.answer (.removed false)]
  /-- A recording adds a release that was not there, and a removal takes it out again. -/
  | undone {recording : Recording} {policy : Policy} {outcome : Outcome}
      (habsent : ledger.isRecorded recording.name recording.language = false)
      (hanswer : (ledger.answer (.record recording policy)).1 = .recorded outcome) :
      IsIneffective ledger [.call (.record recording policy), .call (.remove recording.key)]
        [.answer (.recorded outcome), .answer (.removed true)]

variable {ledger : Ledger}

/-! ### Runs -/

theorem tells_append (ledger : Ledger) (calls more : List RowCall) :
    ledger.tells (calls ++ more) =
      ((ledger.tells calls).1 ++ ((ledger.tells calls).2.tells more).1,
        ((ledger.tells calls).2.tells more).2) := by
  induction calls generalizing ledger with
  | nil => rfl
  | cons call calls ih =>
      rw [List.cons_append, tells, tells]
      dsimp only
      rw [ih]
      rfl

theorem length_tells (ledger : Ledger) (calls : List RowCall) :
    (ledger.tells calls).1.length = calls.length := by
  induction calls generalizing ledger with
  | nil => rfl
  | cons call calls ih =>
      unfold tells
      dsimp only
      rw [List.length_cons, List.length_cons, ih]

theorem IsSound.tell (h : ledger.IsSound) (call : RowCall) : (ledger.tell call).2.IsSound := by
  cases call with
  | call call => exact (h.step call).2
  | rows filter? | snapshot filter? => exact h

theorem IsSound.tells (h : ledger.IsSound) (calls : List RowCall) :
    (ledger.tells calls).2.IsSound := by
  induction calls generalizing ledger with
  | nil => exact h
  | cons call calls ih => exact ih (h.tell call)

/-! ### Back to the same rows -/

/-- A release that was just added takes its rows along and no others. -/
theorem IsSound.erase_insert (h : ledger.IsSound) (recording : Recording) :
    (ledger.insert recording).erase ledger.nextReleaseId = ledger := by
  have hreleases : ledger.releases.filter (fun row => row.id ≠ ledger.nextReleaseId) =
      ledger.releases :=
    List.filter_eq_self.mpr fun row hrow =>
      decide_eq_true (Nat.ne_of_lt (id_lt_nextReleaseId hrow))
  have hfiles : ledger.files.filter (fun file => file.releaseId ≠ ledger.nextReleaseId) =
      ledger.files :=
    List.filter_eq_self.mpr fun file hfile => decide_eq_true (Nat.ne_of_lt (h.releaseId_lt hfile))
  have hnew : (fileRows ledger.nextReleaseId (nextId (ledger.files.map FileRow.id))
      (Text.distinct recording.files)).filter
        (fun file => file.releaseId ≠ ledger.nextReleaseId) = [] := by
    apply List.filter_eq_nil_iff.mpr
    intro file hfile hne
    exact of_decide_eq_true hne (mem_fileRows hfile).1
  unfold Ledger.erase
  rw [releases_insert, files_insert, List.filter_append, List.filter_append, hreleases, hfiles,
    hnew, List.append_nil]
  simp [rowOf]

/-- The row of a release that was just added is found under its key. -/
theorem find?_insert {recording : Recording}
    (habsent : ledger.find? recording.name recording.language = none) :
    (ledger.insert recording).find? recording.name recording.language =
      some (rowOf ledger.nextReleaseId recording) := by
  unfold find? at habsent ⊢
  rw [releases_insert, List.find?_append, habsent, Option.none_or]
  simp [rowOf]

/-- A release that was just added can be removed, and the rows are those from before. -/
theorem IsSound.remove_insert (h : ledger.IsSound) {recording : Recording}
    (habsent : ledger.find? recording.name recording.language = none) :
    (ledger.insert recording).remove recording.name recording.language = (true, ledger) := by
  unfold Ledger.remove
  rw [find?_insert habsent]
  show (true, (ledger.insert recording).erase ledger.nextReleaseId) = _
  rw [h.erase_insert]

theorem answer_keeps {call : LedgerCall}
    (h : (ledger.answer call).1 = .recorded .duplicate ∨
      (∃ clash, (ledger.answer call).1 = .refused clash) ∨
      (ledger.answer call).1 = .removed false) : (ledger.answer call).2 = ledger := by
  obtain ⟨hsame, -⟩ | ⟨key, -, hanswer⟩ | ⟨_, _, outcome, -, houtcome, -, hanswer⟩ :=
    ledger.answer_cases call
  · exact hsame
  · rw [hanswer] at h
    simp at h
  · rw [hanswer] at h
    simp [houtcome] at h

/-- A recording of a release that is not there adds it. -/
theorem answer_record_absent {recording : Recording} {policy : Policy} {outcome : Outcome}
    (habsent : ledger.find? recording.name recording.language = none)
    (hanswer : (ledger.answer (.record recording policy)).1 = .recorded outcome) :
    ledger.answer (.record recording policy) = (.recorded outcome, ledger.insert recording) := by
  have hrecord : ledger.record recording policy = ledger.insertFresh recording .written := by
    unfold Ledger.record
    rw [habsent]
  rw [answer, hrecord] at hanswer ⊢
  unfold Ledger.insertFresh at hanswer ⊢
  cases hclash : ledger.clash? (Text.distinct recording.files) with
  | some clash =>
      rw [hclash] at hanswer
      cases hanswer
  | none =>
      rw [hclash] at hanswer
      cases hanswer
      rfl

theorem tells_call (ledger : Ledger) (call : LedgerCall) :
    ledger.tells [.call call] = ([.answer (ledger.answer call).1], (ledger.answer call).2) :=
  rfl

/-- Calls that come to nothing give these answers and the same rows. -/
theorem IsSound.tells_ineffective (h : ledger.IsSound) {calls : List RowCall}
    {answers : List RowAnswer} (hcalls : ledger.IsIneffective calls answers) :
    ledger.tells calls = (answers, ledger) := by
  cases hcalls with
  | duplicate hanswer => rw [tells_call, answer_keeps (Or.inl hanswer), hanswer]
  | refused hanswer => rw [tells_call, answer_keeps (Or.inr (Or.inl ⟨_, hanswer⟩)), hanswer]
  | absent hanswer => rw [tells_call, answer_keeps (Or.inr (Or.inr hanswer)), hanswer]
  | @undone recording policy outcome habsent hanswer =>
      have hfind : ledger.find? recording.name recording.language = none :=
        Option.not_isSome_iff_eq_none.mp (Bool.not_eq_true _ ▸ habsent)
      have hremove : (ledger.insert recording).answer (.remove recording.key) =
          (.removed true, ledger) := by
        rw [answer, Recording.key, h.remove_insert hfind]
      rw [← List.singleton_append, tells_append, tells_call, answer_record_absent hfind hanswer,
        tells_call, hremove]
      rfl

/-- **Calls without a trace.** In every ledger that calls lead to, a recording row by row is all or
nothing: the work that meets an owner, when the release to be replaced may be gone and any number of
files may have been added, leaves the rows from before.

So calls that come to nothing may stand anywhere among others: what the others are told is the same,
with all numbers of rows, and so are the rows in the end. -/
theorem tells_around_ineffective (before : List RowCall) :
    let ledger := (empty.tells before).2
    (∀ recording policy, ledger.transact (recordRows recording policy) =
      match ledger.record recording policy with
      | .ok (outcome, next) => (next, .ok outcome)
      | .error clash => (ledger, .error clash)) ∧
    ∀ calls answers, ledger.IsIneffective calls answers → ∀ later, ∃ prior rest last,
      prior.length = before.length ∧ rest.length = later.length ∧
      empty.tells (before ++ later) = (prior ++ rest, last) ∧
      empty.tells (before ++ calls ++ later) = (prior ++ answers ++ rest, last) := by
  have hsound := empty_sound.tells before
  refine ⟨hsound.transact_recordRows, fun calls answers hcalls later => ?_⟩
  have hsame := hsound.tells_ineffective hcalls
  refine ⟨(empty.tells before).1, ((empty.tells before).2.tells later).1,
    ((empty.tells before).2.tells later).2, length_tells _ _, length_tells _ _,
    tells_append _ _ _, ?_⟩
  rw [List.append_assoc, tells_append, tells_append, hsame, List.append_assoc]

def recordingOf (name : Text) (files : List Path) : Recording where
  name
  language := "go"
  tag := name
  package := "p"
  version := "1"
  published := .epoch
  files

def twoReleases : List RowCall :=
  [.call (.record (recordingOf "a" ["x"]) .reject), .call (.record (recordingOf "b" ["y"]) .reject)]

/-- A recording that replaces the second one. Its last file belongs to the first one. -/
def replacement : Recording := recordingOf "b" ["z", "x"]

/-- The replacement meets the owner of `x` when the second release is gone and `z` is added. Later
calls are told nothing of it. -/
theorem tells_around_ineffective_replacement :
    let ledger := (empty.tells twoReleases).2
    let clash : Clash := ⟨"x", "a", "go"⟩
    (recordRows replacement .replace ledger).2 = .error clash ∧
    (recordRows replacement .replace ledger).1.files.map FileRow.path = ["x", "z"] ∧
    ledger.transact (recordRows replacement .replace) = (ledger, .error clash) ∧
    ∃ prior rest last, prior.length = 2 ∧ rest.length = 2 ∧
      empty.tells (twoReleases ++ [.rows none, .snapshot none]) = (prior ++ rest, last) ∧
      empty.tells (twoReleases ++ [.call (.record replacement .replace)] ++
          [.rows none, .snapshot none]) =
        (prior ++ [.answer (.refused clash)] ++ rest, last) := by
  obtain ⟨hwhole, hcalls⟩ := tells_around_ineffective twoReleases
  exact ⟨rfl, rfl, hwhole replacement .replace,
    hcalls _ _ (.refused rfl) [.rows none, .snapshot none]⟩

end Ledger

end SampleHarvest
