import SampleHarvest.CommandLine.Extract
import SampleHarvest.Proofs.Extraction.History
import SampleHarvest.Proofs.Harvest.Placement
import SampleHarvest.Proofs.Ledger.Opening
import SampleHarvest.Proofs.Ledger.Recording

/-!
# The stages of an extraction

An extraction skips its release, fails, or goes through all stages: it harvests, writes every
artifact and records the release. On the disk it makes folders and writes documents below the output
root, and nothing else. The rows are stored when it is done.
-/

namespace SampleHarvest

namespace OpenLedger

/-- Only a ledger that may be changed records, and what else is known of it stays. -/
theorem record_rows {opened next : OpenLedger} {recording : Recording} {policy : Policy}
    {outcome : Outcome} (h : opened.record recording policy = .ok (outcome, next)) :
    opened.isReadOnly = false ∧ ∃ ledger,
      opened.ledger.record recording policy = .ok (outcome, ledger) ∧
        next = { opened with ledger } := by
  rw [OpenLedger.record] at h
  split_ifs at h with hreadOnly
  refine ⟨by simpa using hreadOnly, ?_⟩
  cases hrecord : opened.ledger.record recording policy with
  | error clash =>
      rw [hrecord] at h
      cases h
  | ok recorded =>
      rw [hrecord] at h
      cases h
      exact ⟨recorded.2, rfl, rfl⟩

theorem record_of_rows {opened : OpenLedger} {recording : Recording} {policy : Policy}
    {outcome : Outcome} {ledger : Ledger} (hwrite : opened.isReadOnly = false)
    (h : opened.ledger.record recording policy = .ok (outcome, ledger)) :
    opened.record recording policy = .ok (outcome, { opened with ledger }) := by
  rw [OpenLedger.record, if_neg (by simp [hwrite]), h]

end OpenLedger

namespace Extraction

variable {extraction : Extraction} {oracle : Oracle} {disk : Disk} {opened : OpenLedger}

/-- A run that wrote or replaced its release went through all stages. -/
theorem run_recorded {summary : ExtractionSummary}
    (hresult : (extraction.run oracle disk opened).result = .ok summary)
    (houtcome : summary.outcome? = some .written ∨ summary.outcome? = some .replaced) :
    ¬extraction.Skips opened ∧ ∃ harvest made outcome next,
      extraction.harvest oracle disk = .ok harvest ∧
      disk.publishAll extraction.output harvest.artifacts =
        (made, .ok (harvest.artifacts.map Artifact.path)) ∧
      opened.record (extraction.recording (harvest.artifacts.map Artifact.path))
        extraction.policy = .ok (outcome, next) ∧
      extraction.run oracle disk opened = ⟨made, next, .ok (recorded harvest outcome)⟩ ∧
      summary = recorded harvest outcome := by
  rcases extraction.run_cases oracle disk opened with
    ⟨-, hrun⟩ | ⟨failure, made, hrun⟩ |
    ⟨hskips, harvest, made, outcome, next, hharvest, hpublish, hrecord, hrun⟩
  all_goals
    rw [hrun] at hresult
    cases hresult
  · simp [skipped] at houtcome
  · exact ⟨hskips, harvest, made, outcome, next, hharvest, hpublish, hrecord, hrun, rfl⟩

/-- A run makes folders and writes documents below its output root. -/
theorem run_changes (extraction : Extraction) (oracle : Oracle) (disk : Disk)
    (opened : OpenLedger) :
    Disk.Changes (.writing ((extraction.run oracle disk opened).disk.HasDocumentAt
      extraction.output)) disk (extraction.run oracle disk opened).disk := by
  rcases extraction.run_disk oracle disk opened with ⟨hdisk, -⟩ | ⟨harvest, hharvest, hdisk, -⟩
  · rw [hdisk]
  · have hcontained := (harvest_artifacts hharvest).1
    rw [hdisk]
    refine (disk.publishAll_changes extraction.output harvest.artifacts).mono (fun _ => id) ?_
      fun _ => id
    rintro location ⟨artifact, hmem, hplace⟩
    exact ⟨artifact.target, hcontained artifact hmem, hplace⟩

end Extraction

namespace ExtractRequest

variable {request : ExtractRequest} {config : Config} {now : Instant} {path : Path}
  {extraction : Extraction} {oracle : Oracle} {disk start : Disk} {opened : OpenLedger}

/-- An extraction is what its request says, with a time of publication that can be told. -/
theorem extraction_ok_iff : request.extraction config now = .ok extraction ↔
    request.concurrency?.getD config.validation.concurrency ≠ 0 ∧ ∃ published,
      request.publishedAt now = .ok published ∧
      { dialect := request.dialect
        release := request.release
        name := request.name
        policy := request.policy?.getD config.ledger.onDuplicate
        published
        sources := request.sources
        output := request.output
        template? := config.docs.template? request.dialect
        concurrency := request.concurrency?.getD config.validation.concurrency } = extraction := by
  rw [ExtractRequest.extraction]
  cases request.publishedAt now with
  | error failure => simp [bind, Except.bind]
  | ok published =>
      simp only [bind, Except.bind]
      split_ifs with hconcurrency
      · simp [hconcurrency]
      · simp [hconcurrency, pure, Except.pure]

theorem output_extraction (h : request.extraction config now = .ok extraction) :
    extraction.output = request.output := by
  obtain ⟨-, published, -, rfl⟩ := extraction_ok_iff.mp h
  rfl

/-- A run that is no preview works with a ledger. -/
theorem executeAsking_eq (hreal : request.dryRun = false)
    (h : request.extraction config now = .ok extraction) :
    request.executeAsking config now oracle disk =
      request.executeWith (request.ledgerPath config) extraction oracle disk := by
  rw [executeAsking, h]
  simp only [hreal, Bool.false_eq_true, if_false]

theorem executeWith_error {failure : Failure}
    (h : disk.openLedger path = (start, .error failure)) :
    request.executeWith path extraction oracle disk =
      ⟨start, .error (.during ("Failed to open ledger " ++ path) failure)⟩ := by
  rw [executeWith, h]

theorem executeWith_ok (h : disk.openLedger path = (start, .ok opened)) :
    request.executeWith path extraction oracle disk =
      ⟨(extraction.run oracle start opened).disk.storeLedger
          (extraction.run oracle start opened).opened,
        request.conclude (extraction.run oracle start opened).result⟩ := by
  rw [executeWith, h]

end ExtractRequest

end SampleHarvest
