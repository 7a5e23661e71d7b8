import SampleHarvest.Harvest.Discovery
import SampleHarvest.Markdown
import SampleHarvest.Sample.Example
import SampleHarvest.Validation.Basic

/-!
# Harvests

A harvest turns the sources below a folder into artifacts. Every example whose target is contained
is offered to the oracle; those that are accepted become artifacts, and of several artifacts for one
document the first is kept.

Each file is harvested by itself. What the files give is put together in the order of the artifacts,
so the order in which the files were done does not matter.
-/

namespace SampleHarvest

/-- An accepted example as a document. -/
structure Artifact where
  target : Target
  content : Text
  reference : Text
  source : Path
  /-- The number of the unit in the source file. -/
  index : Nat
  deriving DecidableEq, Repr

/-- The path of an artifact below the output root. -/
def Artifact.path (artifact : Artifact) : Path := artifact.target.documentPath

/-- The order of artifacts: by source file, and in one file by the number of the unit. -/
def Artifact.le (a b : Artifact) : Bool :=
  if a.source = b.source then a.index ≤ b.index else Path.le a.source b.source

structure HarvestReport where
  filesScanned : Nat := 0
  aggregatedFiles : Nat := 0
  unitsFound : Nat := 0
  accepted : Nat := 0
  rejected : Nat := 0
  /-- The units whose target is not contained or already taken. -/
  skipped : Nat := 0
  written : Nat := 0
  deriving DecidableEq, Repr

/-- What one source file gives. -/
structure FileHarvest where
  isAggregated : Bool := false
  unitsFound : Nat := 0
  rejected : Nat := 0
  skipped : Nat := 0
  artifacts : List Artifact := []
  /-- The candidates that were offered to the oracle, in their order. -/
  offered : List Candidate := []
  deriving DecidableEq, Repr

structure Harvest where
  artifacts : List Artifact
  report : HarvestReport
  offered : List Candidate
  deriving DecidableEq, Repr

structure Harvester where
  dialect : Dialect
  style : DocumentStyle
  oracle : Oracle
  /-- How many files are done at the same time. -/
  concurrency : Nat

namespace Harvester

def defaultConcurrency : Nat := 4

/-- How many permits for files can be given out at the same time. -/
def maxPermits : Nat := (UInt64.size - 1) / 8

/-- The harvester of a release, with its own link template or that of the dialect. -/
def of (dialect : Dialect) (release : ReleaseInfo) (template? : Option Text) (oracle : Oracle) :
    Harvester :=
  { dialect
    style := DocumentStyle.of dialect.rules release template?
    oracle
    concurrency := defaultConcurrency }

/-- The harvester that does so many files at the same time, and at least one. -/
def withConcurrency (harvester : Harvester) (concurrency : Nat) : Harvester :=
  { harvester with concurrency := max concurrency 1 }

def candidate (harvester : Harvester) (shown : Example) : Candidate :=
  ⟨harvester.dialect, shown.target.stem, shown.code⟩

/-- The artifact that an example of a source file makes. -/
def artifact (harvester : Harvester) (source : Path) (shown : Example) : Artifact :=
  { target := shown.target
    content := harvester.style.document shown.code
    reference := shown.reference
    source
    index := shown.index }

/-- Puts the examples of a source file before the oracle, one after the other. -/
def judge (harvester : Harvester) (source : Path) : List Example → Except Failure FileHarvest
  | [] => .ok {}
  | shown :: rest =>
    if shown.target.isContained then do
      let verdict ← harvester.oracle (harvester.candidate shown)
      let outcome ← harvester.judge source rest
      let outcome := { outcome with offered := harvester.candidate shown :: outcome.offered }
      match verdict with
      | .accept =>
        return { outcome with artifacts := harvester.artifact source shown :: outcome.artifacts }
      | .reject _ => return { outcome with rejected := outcome.rejected + 1 }
    else do
      let outcome ← harvester.judge source rest
      return { outcome with skipped := outcome.skipped + 1 }

/-- What a source file with this text gives. -/
def harvestText (harvester : Harvester) (source : Path) (text : Text) :
    Except Failure FileHarvest := do
  let rules := harvester.dialect.rules
  let shown := extractExamples rules text ((Path.stem? source).getD [])
  let outcome ← harvester.judge source shown
  return { outcome with
    isAggregated := !shown.isEmpty || rules.isAggregated (splitLines text)
    unitsFound := shown.length }

/-- What a source file gives; one that is no text gives nothing. -/
def harvestFile (harvester : Harvester) (disk : Disk) (source : Path) :
    Except Failure FileHarvest :=
  match disk.readText source with
  | .ok text => harvester.harvestText source text
  | .error .notText => .ok {}
  | .error fault => .error (.io fault)

end Harvester

namespace Harvest

/-- The artifacts without those whose document is taken by an earlier one. -/
def keepFirst (artifacts : List Artifact) : List Artifact :=
  artifacts.foldl
    (fun kept artifact =>
      if kept.any (·.path == artifact.path) then kept else kept ++ [artifact]) []

def total (counter : FileHarvest → Nat) : List FileHarvest → Nat
  | [] => 0
  | file :: files => counter file + total counter files

/-- The harvest that these files give together. -/
def ofFiles (files : List FileHarvest) : Harvest :=
  let artifacts := (files.flatMap FileHarvest.artifacts).mergeSort Artifact.le
  let kept := keepFirst artifacts
  { artifacts := kept
    report :=
      { filesScanned := files.length
        aggregatedFiles := files.countP FileHarvest.isAggregated
        unitsFound := total FileHarvest.unitsFound files
        accepted := kept.length
        rejected := total FileHarvest.rejected files
        skipped := total FileHarvest.skipped files + (artifacts.length - kept.length) }
    offered := files.flatMap FileHarvest.offered }

end Harvest

namespace Harvester

/-- The harvest of files that were done in this order; the first failure ends it. -/
def harvestFiles (harvester : Harvester) (disk : Disk) (sources : List Path) :
    Except Failure Harvest :=
  (sources.mapM (harvester.harvestFile disk)).map Harvest.ofFiles

/-- Why a harvest cannot begin with its files. -/
def permitFault? (harvester : Harvester) : Option Failure :=
  if maxPermits < harvester.concurrency then
    some (.aborted ("a semaphore may not have more than MAX_PERMITS permits (" ++
      Text.ofNat maxPermits ++ ")"))
  else none

/-- The harvest of the sources below a folder. -/
def harvest (harvester : Harvester) (disk : Disk) (sources : Path) : Except Failure Harvest := do
  let files ← disk.discover harvester.dialect.rules sources
  match harvester.permitFault? with
  | some failure => throw failure
  | none => harvester.harvestFiles disk files

end Harvester

end SampleHarvest
