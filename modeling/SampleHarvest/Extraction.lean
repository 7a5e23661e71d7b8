import SampleHarvest.Harvest.Publication
import SampleHarvest.Ledger.File

/-!
# Extractions

An extraction harvests one release, publishes its artifacts below an output root and records the
release with the paths of its files. It works on a disk and on an open ledger, and leaves both
behind whether it succeeds or not.

Under the policy to reject, a release that is already recorded is skipped before anything is read.
The ledger is touched last, after every artifact has been written. A preview harvests only, and
leaves the disk as it is.
-/

namespace SampleHarvest

structure Extraction where
  dialect : Dialect
  release : ReleaseInfo
  name : Text
  policy : Policy
  published : Instant
  sources : Path
  output : Path
  /-- The link template that takes the place of that of the dialect. -/
  template? : Option Text
  /-- How many files are harvested at the same time. -/
  concurrency : Nat := Harvester.defaultConcurrency
  deriving DecidableEq, Repr

structure ExtractionSummary where
  /-- What became of the recording; none in a preview. -/
  outcome? : Option Outcome
  /-- The paths of the artifacts below the output root. -/
  files : List Path
  /-- The counters of the harvest; none if the release was skipped. -/
  report? : Option HarvestReport
  deriving DecidableEq, Repr

inductive ExtractionFailure where
  | harvest (failure : Failure)
  | publication (fault : DiskFault)
  | recording (failure : Failure)
  deriving DecidableEq, Repr

/-- An extraction as it leaves the disk and the open ledger behind. -/
structure Extracted where
  disk : Disk
  opened : OpenLedger
  result : Except ExtractionFailure ExtractionSummary

namespace Extraction

/-- The language that the ledger knows the release by. -/
def language (extraction : Extraction) : Text := extraction.dialect.name

/-- What harvests the release, with this oracle to answer for the examples. -/
def harvester (extraction : Extraction) (oracle : Oracle) : Harvester :=
  (Harvester.of extraction.dialect extraction.release extraction.template? oracle).withConcurrency
    extraction.concurrency

def harvest (extraction : Extraction) (oracle : Oracle) (disk : Disk) :
    Except ExtractionFailure Harvest :=
  ((extraction.harvester oracle).harvest disk extraction.sources).mapError .harvest

def recording (extraction : Extraction) (files : List Path) : Recording :=
  { name := extraction.name
    language := extraction.language
    tag := extraction.release.tag
    package := extraction.release.package
    version := extraction.release.version
    published := extraction.published
    files }

def preview (extraction : Extraction) (oracle : Oracle) (disk : Disk) :
    Except ExtractionFailure ExtractionSummary :=
  (extraction.harvest oracle disk).map fun harvest =>
    { outcome? := none
      files := harvest.artifacts.map Artifact.path
      report? := some harvest.report }

/-- Publishes a harvest and records the release. -/
def publish (extraction : Extraction) (harvest : Harvest) (disk : Disk) (opened : OpenLedger) :
    Extracted :=
  match disk.publishAll extraction.output harvest.artifacts with
  | (disk, .error fault) => ⟨disk, opened, .error (.publication fault)⟩
  | (disk, .ok files) =>
    match opened.record (extraction.recording files) extraction.policy with
    | .error failure => ⟨disk, opened, .error (.recording failure)⟩
    | .ok (outcome, opened) =>
      let report := { harvest.report with written := files.length }
      ⟨disk, opened, .ok { outcome? := some outcome, files, report? := some report }⟩

def run (extraction : Extraction) (oracle : Oracle) (disk : Disk) (opened : OpenLedger) :
    Extracted :=
  if extraction.policy = .reject ∧
      opened.ledger.isRecorded extraction.name extraction.language then
    ⟨disk, opened, .ok { outcome? := some .duplicate, files := [], report? := none }⟩
  else
    match extraction.harvest oracle disk with
    | .error failure => ⟨disk, opened, .error failure⟩
    | .ok harvest => extraction.publish harvest disk opened

end Extraction

end SampleHarvest
