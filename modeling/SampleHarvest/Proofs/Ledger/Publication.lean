import SampleHarvest.CommandLine.Ledger
import SampleHarvest.Proofs.Calendar.Written
import SampleHarvest.Proofs.Ledger.Snapshot

/-!
# Publication dates survive to the export

A publication time is kept as a second, and both the list of releases and an export make a time of
this second again. This fails for years that cannot be told, but no text that is read as a
publication time gives such a second: a date lies in a year that can be told, and a timestamp has a
year of four digits and an offset of less than a day.

So what is told of a release is the midnight of its date, and the date itself, or the second of its
timestamp and the day of this second in universal time.
-/

namespace SampleHarvest

open PublicationTime

namespace Instant

/-- A second can be told from the first to the last day of the years that can. -/
theorem isTold_of_range {seconds : Int}
    (hfirst : Date.dayNumber ⟨Date.minYear, 1, 1⟩ ≤ seconds / 86400)
    (hlast : seconds / 86400 < Date.dayNumber ⟨Date.maxYear + 1, 1, 1⟩) : isTold seconds := by
  obtain ⟨hyear, hyear'⟩ := (Date.ofDayNumber_isInCalendar (seconds / 86400)).dayNumber_year
  rw [Date.dayNumber_ofDayNumber] at hyear hyear'
  simp only [isTold, Bool.and_eq_true, decide_eq_true_eq]
  constructor
  · by_contra hless
    have := Date.dayNumber_le_year (Int.not_le.mp hless)
    omega
  · by_contra hmore
    have := Date.dayNumber_le_year (Int.not_le.mp hmore)
    omega

theorem isTold_of_isValid {date : Date} (h : date.isValid) : isTold (date.dayNumber * 86400) := by
  obtain ⟨hfirst, hlast⟩ := (Date.isInCalendar_of_isValid h).dayNumber_year
  have hyears : Date.minYear ≤ date.year ∧ date.year ≤ Date.maxYear := by
    simp only [Date.isValid, Bool.and_eq_true, decide_eq_true_eq] at h
    exact h.1.1.1.1
  have hleast := Date.dayNumber_le_year hyears.1
  have hmost := Date.dayNumber_le_year (Int.add_le_add_right hyears.2 1)
  apply isTold_of_range <;> rw [Int.mul_ediv_cancel _ (by decide)] <;> omega

end Instant

namespace PublicationTime

theorem IsOffset.range {zone : Text} {shift : Int} (h : IsOffset zone shift) :
    -86400 < shift ∧ shift < 86400 := by
  cases h <;> omega

/-- A timestamp has a year of four digits, so also its day in universal time can be told. -/
theorem Timestamp.IsWritten.isTold {stamp : Timestamp} {t : Text} (h : stamp.IsWritten t)
    (hvalid : stamp.IsValid) : Instant.isTold stamp.seconds := by
  obtain ⟨hfirst, hlast⟩ := (Date.isInCalendar_of_isValid hvalid.date).dayNumber_year
  obtain ⟨hleast, hmost, hshift, hshift'⟩ : 0 ≤ stamp.date.year ∧ stamp.date.year ≤ 9999 ∧
      -86400 < stamp.shift ∧ stamp.shift < 86400 := by
    cases h with
    | fields hdate hyear _ _ _ _ _ _ _ hzone =>
        have hlt := hyear.lt
        have hrange := hzone.range
        omega
  -- The day in universal time is the one before the date, the date or the one after it.
  have hnear : stamp.date.dayNumber - 1 ≤ stamp.seconds / 86400 ∧
      stamp.seconds / 86400 ≤ stamp.date.dayNumber + 1 := by
    have hhour := hvalid.hour
    have hminute := hvalid.minute
    rw [Timestamp.seconds]
    omega
  have hleast := Date.dayNumber_le_year hleast
  have hmost := Date.dayNumber_le_year (Int.add_le_add_right hmost 1)
  have hbefore : Date.dayNumber ⟨Date.minYear, 1, 1⟩ < Date.dayNumber ⟨0, 1, 1⟩ := by decide
  have hafter : Date.dayNumber ⟨9999 + 1, 1, 1⟩ < Date.dayNumber ⟨Date.maxYear + 1, 1, 1⟩ := by
    decide
  apply Instant.isTold_of_range <;> omega

end PublicationTime

def ExportedRelease.key (release : ExportedRelease) : ReleaseKey := ⟨release.name, release.language⟩

namespace Ledger

structure TellsOf (ledger : Ledger) (key : ReleaseKey) (seconds : Int) (date : Date) : Prop where
  /-- An export that holds the language has the release once, with the second and the date. -/
  snapshot : ∀ filter?, passes filter? key.language → ∃ release,
    (ledger.snapshot filter?).releases.filter (fun other => other.key = key) = [release] ∧
      release.seconds = seconds ∧ date.IsShown release.date
  /-- A list that holds the language has the release once, with the second. -/
  list : ∀ filter?, passes filter? key.language → ∃ row,
    (ledger.list filter?).filter (fun other => other.key = key) = [row] ∧
      LedgerTask.publishedAt row = ⟨seconds, 0⟩

variable {ledger : Ledger} {recording : Recording} {policy : Policy} {outcome : Outcome}

theorem IsSound.filter_passes_key (h : ledger.IsSound) {row : ReleaseRow}
    (hrow : row ∈ ledger.releases) {filter? : Option Text} (hpass : passes filter? row.language) :
    ((ledger.releases.filter fun other => passes filter? other.language).filter
      fun other => other.key = row.key) = [row] := by
  refine filter_eq_singleton ((List.Nodup.of_map _ h.keys).filter _)
    (List.mem_filter.mpr ⟨hrow, hpass⟩) fun other hother => ?_
  exact h.eq_of_key (List.mem_filter.mp hother).1 hrow

theorem IsSound.tellsOf (h : ledger.IsSound) {row : ReleaseRow} (hrow : row ∈ ledger.releases)
    (htold : Instant.isTold row.published) :
    ledger.TellsOf row.key row.published (Date.ofDayNumber (row.published / 86400)) := by
  have hstored : Instant.ofStored row.published = ⟨row.published, 0⟩ := if_pos htold
  constructor
  · intro filter? hpass
    refine ⟨ExportedRelease.ofRow row, ?_, rfl, ?_⟩
    · have honly := h.filter_passes_key hrow hpass
      rw [snapshot, filter_exported (q := fun other => other.key = row.key) fun _ _ => rfl, honly]
      rfl
    · rw [ExportedRelease.ofRow, hstored]
      exact (Date.ofDayNumber_isInCalendar _).slashText_isShown
  · -- The list has the same rows in another order, and one row has no other order.
    intro filter? hpass
    refine ⟨row, ?_, hstored⟩
    have hperm := (List.mergeSort_perm (ledger.releases.filter fun other =>
      passes filter? other.language) comesBefore).filter fun other => other.key = row.key
    rw [h.filter_passes_key hrow hpass] at hperm
    exact List.perm_singleton.mp hperm

theorem exists_row_of_recorded (houtcome : outcome ≠ .duplicate)
    (hanswer : (ledger.answer (.record recording policy)).1 = .recorded outcome) :
    ∃ row ∈ (ledger.answer (.record recording policy)).2.releases,
      row.key = recording.key ∧ row.published = recording.published.seconds := by
  obtain ⟨-, hnone⟩ | ⟨key, hcall, -⟩ | ⟨_, _, _, hcall, -, -, hnext⟩ :=
    ledger.answer_cases (.record recording policy)
  · exact absurd (hanswer ▸ Changes.recorded rfl houtcome) (hnone recording.key)
  · cases hcall
  · cases hcall
    rw [hnext, releases_insert]
    exact ⟨_, List.mem_append_right _ (List.mem_singleton_self _), rfl, rfl⟩

/-- Whatever release is recorded after these calls with the time that a text gives, this second and
this date are told of it. -/
def Publishes (calls : List LedgerCall) (t : Text) (seconds : Int) (date : Date) : Prop :=
  ∃ instant, parse? t = some instant ∧ instant.seconds = seconds ∧
    ∀ recording policy outcome, recording.published = instant → outcome ≠ .duplicate →
      answerAfter calls (.record recording policy) = .recorded outcome →
      (after (calls ++ [.record recording policy])).TellsOf recording.key seconds date

theorem publishes_of_isTold (calls : List LedgerCall) {t : Text} {instant : Instant}
    (hparse : parse? t = some instant) (htold : Instant.isTold instant.seconds) :
    Publishes calls t instant.seconds (Date.ofDayNumber (instant.seconds / 86400)) := by
  refine ⟨instant, hparse, rfl, ?_⟩
  rintro recording policy outcome rfl houtcome hanswer
  rw [after_concat]
  obtain ⟨row, hrow, hkey, hsecond⟩ := exists_row_of_recorded houtcome hanswer
  have hsound : ((after calls).answer (.record recording policy)).2.IsSound :=
    ((after_sound calls).step _).2
  rw [← hsecond] at htold ⊢
  exact hkey ▸ hsound.tellsOf hrow htold

theorem publishes_of_isValid (calls : List LedgerCall) {date : Date} {t : Text}
    (hvalid : date.isValid) (h : date.IsWritten t.trim) :
    Publishes calls t (date.dayNumber * 86400) date := by
  have hpublishes := publishes_of_isTold calls (h.parse? hvalid) (Instant.isTold_of_isValid hvalid)
  dsimp only at hpublishes
  rwa [Int.mul_ediv_cancel _ (by decide),
    (Date.isInCalendar_of_isValid hvalid).ofDayNumber_dayNumber] at hpublishes

theorem publishes_of_timestamp (calls : List LedgerCall) {stamp : Timestamp} {t : Text}
    (hvalid : stamp.IsValid) (h : stamp.IsWritten t.trim) :
    Publishes calls t stamp.seconds (Date.ofDayNumber (stamp.seconds / 86400)) := by
  obtain ⟨nanos, hparse⟩ := parseTimestamp?_iff.mpr ⟨stamp, h, hvalid, rfl⟩
  have hfirst : parse? t = some ⟨stamp.seconds, nanos⟩ := by
    rw [parse?, hparse]
    rfl
  exact publishes_of_isTold calls hfirst (h.isTold hvalid)

/-- **Publication dates.** Every date in the years that can be told has a written form, and each of
its forms, with blanks around it or not, is read as midnight in universal time on its day, so many
days from 1 January 1970. These seconds have the order of the dates. A release that is recorded with
the time is exported with the same second and the same date.

Exactly the written timestamps with a date of the calendar and a time of the clock are accepted. The
second that is recorded and listed is the time less the offset, without its fraction, and the date
that is exported is the day of this second in universal time. -/
theorem published_date_survives (calls : List LedgerCall) :
    (∀ date : Date, date.isValid → date.IsWritten date.isoText.trim ∧
      ∃ days, date.IsDayCount days ∧ ∀ t : Text, date.IsWritten t.trim →
        parse? t = some ⟨86400 * days, 0⟩ ∧ Publishes calls t (86400 * days) date) ∧
    (∀ a b : Date, a.isValid → b.isValid → ∀ s t : Text,
      a.IsWritten s.trim → b.IsWritten t.trim → ∃ earlier later,
        parse? s = some earlier ∧ parse? t = some later ∧
        (earlier.seconds < later.seconds ↔ a.IsBefore b)) ∧
    (∀ t : Text, (∃ instant, parseTimestamp? t.trim = some instant) ↔
      ∃ stamp : Timestamp, stamp.IsWritten t.trim ∧ stamp.IsValid) ∧
    ∀ (stamp : Timestamp) (t : Text), stamp.IsWritten t.trim → stamp.IsValid →
      ∃ days day, stamp.date.IsDayCount days ∧ day.IsInCalendar ∧
        day.IsDayCount (⌊stamp.moment days⌋ / 86400) ∧
        Publishes calls t ⌊stamp.moment days⌋ day := by
  refine ⟨fun date hvalid => ?_, ?_, fun t => ?_, fun stamp t h hvalid => ?_⟩
  · have hdate := Date.isInCalendar_of_isValid hvalid
    refine ⟨hdate.isoText_isWritten.trim.symm ▸ hdate.isoText_isWritten, date.dayNumber,
      hdate.isDayCount_iff.mpr rfl, fun t h => ?_⟩
    rw [Int.mul_comm]
    exact ⟨h.parse? hvalid, publishes_of_isValid calls hvalid h⟩
  · intro a b ha hb s t hs ht
    refine ⟨_, _, hs.parse? ha, ht.parse? hb, ?_⟩
    dsimp only
    rw [Int.mul_lt_mul_right (by decide)]
    exact (Date.isInCalendar_of_isValid ha).dayNumber_lt_iff (Date.isInCalendar_of_isValid hb)
  · constructor
    · rintro ⟨⟨seconds, nanos⟩, h⟩
      obtain ⟨stamp, hwritten, hvalid, -⟩ := parseTimestamp?_iff.mp ⟨nanos, h⟩
      exact ⟨stamp, hwritten, hvalid⟩
    · rintro ⟨stamp, hwritten, hvalid⟩
      obtain ⟨nanos, h⟩ := parseTimestamp?_iff.mpr ⟨stamp, hwritten, hvalid, rfl⟩
      exact ⟨_, h⟩
  · have hdate := Date.isInCalendar_of_isValid hvalid.date
    have hday := Date.ofDayNumber_isInCalendar (stamp.seconds / 86400)
    refine ⟨stamp.date.dayNumber, _, hdate.isDayCount_iff.mpr rfl, hday, ?_, ?_⟩
    · rw [← h.seconds_eq_floor]
      exact hday.isDayCount_iff.mpr (Date.dayNumber_ofDayNumber _).symm
    · rw [← h.seconds_eq_floor]
      exact publishes_of_timestamp calls hvalid h

/-- A leap second at half past twelve, where the clock is half an hour ahead. -/
def leapSecond : Text := " 1970-01-01T00:29:60.5+00:30"

def leapSecondRecording : Recording where
  name := "n"
  language := "go"
  tag := "t"
  package := "p"
  version := "1"
  published := ⟨-1, 1500000000⟩
  files := []

/-- The leap second is told as the last second of 1969, whose date is exported. -/
theorem published_date_survives_leapSecond :
    parse? leapSecond = some leapSecondRecording.published ∧
    answerAfter [] (.record leapSecondRecording .reject) = .recorded .written ∧
    (after [.record leapSecondRecording .reject]).TellsOf leapSecondRecording.key (-1)
      ⟨1969, 12, 31⟩ := by
  have hparse : parseTimestamp? leapSecond.trim = some leapSecondRecording.published := by decide
  have hfirst : parse? leapSecond = some leapSecondRecording.published := by
    rw [parse?, hparse]
    rfl
  obtain ⟨stamp, hwritten, hvalid, hseconds⟩ := parseTimestamp?_iff.mp ⟨_, hparse⟩
  obtain ⟨-, -, -, htimestamps⟩ := published_date_survives []
  obtain ⟨days, day, hdays, hday, hcount, instant, hinstant, -, htells⟩ :=
    htimestamps stamp leapSecond hwritten hvalid
  obtain rfl := (Date.isInCalendar_of_isValid hvalid.date).isDayCount_iff.mp hdays
  rw [← hwritten.seconds_eq_floor, hseconds] at hcount htells
  have hnumber : -1 / 86400 = day.dayNumber := hday.isDayCount_iff.mp hcount
  have hlast : Date.IsInCalendar ⟨1969, 12, 31⟩ := Date.isInCalendar_of_isValid rfl
  obtain rfl := hday.eq_of_dayNumber hlast hnumber.symm
  have hsame : leapSecondRecording.published = instant :=
    Option.some.inj (hfirst.symm.trans hinstant)
  exact ⟨hfirst, rfl, htells leapSecondRecording .reject .written hsame (by decide) rfl⟩

/-- A leap day before year one, in the text of an export. -/
example : (parse? "-0004-02-29").map (fun instant => (instant.seconds, instant.date.slashText)) =
    some (-62288352000, ("02/29/-0004" : Text)) := by
  decide

end Ledger

end SampleHarvest
