import SampleHarvest.Calendar.PublicationTime
import SampleHarvest.CommandLine.Answer
import SampleHarvest.CommandLine.Command
import SampleHarvest.Config.File
import SampleHarvest.Extraction
import SampleHarvest.Ledger.File
import SampleHarvest.Validation.System

/-!
# Extracting a release

A request and the settings together make an extraction, with the oracle that answers for the
examples. The request wins over the settings, and a validation program comes with its own arguments.

The ledger is opened before anything else is done and stored at the end. A dry run opens none, so it
cannot tell whether the release is recorded.
-/

namespace SampleHarvest

namespace ExtractRequest

def release (request : ExtractRequest) : ReleaseInfo :=
  .of request.dialect request.tag request.package request.version request.sdkName?

/-- The name under which the release is recorded. -/
def name (request : ExtractRequest) : Text :=
  request.name?.getD (request.dialect.releaseName request.package request.version)

def ledgerPath (request : ExtractRequest) (config : Config) : Path :=
  request.ledger?.getD config.ledger.path

/-- The validation program and its arguments. -/
def program? (request : ExtractRequest) (config : Config) : Option (Text × List Text) :=
  match request.validate? with
  | some program => some (program, request.validateArguments)
  | none =>
    config.validation.command?.map fun program => (program, config.validation.arguments)

/-- The oracle that answers for the examples. -/
def oracle (request : ExtractRequest) (config : Config) : Oracle :=
  match request.program? config with
  | none => .acceptAll
  | some (program, arguments) =>
    Program.oracle
      ⟨program, arguments, config.validation.timeoutSeconds?.map fun seconds => seconds * 1000⟩

/-- The time of publication; now unless it is given. -/
def publishedAt (request : ExtractRequest) (now : Instant) : Except CommandFailure Instant :=
  match request.published? with
  | none => .ok now
  | some t =>
    match PublicationTime.parse? t with
    | some instant => .ok instant
    | none => .error (.stated .usage (PublicationTime.invalidMessage t))

def extraction (request : ExtractRequest) (config : Config) (now : Instant) :
    Except CommandFailure Extraction := do
  let published ← request.publishedAt now
  let concurrency := request.concurrency?.getD config.validation.concurrency
  if concurrency = 0 then
    throw (.stated .usage "--concurrency must be at least 1")
  return { dialect := request.dialect
           release := request.release
           name := request.name
           policy := request.policy?.getD config.ledger.onDuplicate
           published
           sources := request.sources
           output := request.output
           template? := config.docs.template? request.dialect
           concurrency }

/-- Why an extraction failed, told with what was attempted. -/
def failureOf (request : ExtractRequest) : ExtractionFailure → CommandFailure
  | .harvest failure => .during ("Failed to harvest " ++ request.sources) failure
  | .publication fault => .during ("Failed to write examples below " ++ request.output) (.io fault)
  | .recording failure => .during "Failed to record release" failure

def statusText (summary : ExtractionSummary) : Text :=
  if summary.outcome? = some .duplicate then "skipped" else "succeeded"

/-- The counters of a harvest as a JSON object. -/
def reportJson (report : HarvestReport) : Json :=
  .object
    [("files_scanned", .number report.filesScanned),
      ("aggregated_files", .number report.aggregatedFiles),
      ("units_found", .number report.unitsFound), ("accepted", .number report.accepted),
      ("rejected", .number report.rejected), ("skipped", .number report.skipped),
      ("written", .number report.written)]

/-- A member of a JSON object that is left out if there is no value for it. -/
def memberOf? (name : Text) (value? : Option Json) : List (Text × Json) :=
  (value?.map fun value => (name, value)).toList

def summaryJson (request : ExtractRequest) (summary : ExtractionSummary) : Json :=
  let release : List (Text × Json) :=
    [("status", .string (statusText summary)), ("name", .string request.name),
      ("language", .string request.dialect.name)]
  let files : List (Text × Json) :=
    [("dry_run", .bool request.dryRun), ("files", .array (summary.files.map .string))]
  .object
    (release ++ memberOf? "outcome" (summary.outcome?.map fun outcome => .string outcome.name) ++
      files ++ memberOf? "report" (summary.report?.map reportJson))

/-- The release in a sentence. -/
def mention (request : ExtractRequest) : Text :=
  request.name ++ " (" ++ request.dialect.name ++ ")"

/-- A line that belongs to one above it. -/
def indented (line : Text) : Text := "  " ++ line

def reportLine (report : HarvestReport) : Text :=
  indented (Text.ofNat report.filesScanned ++ " file(s) scanned, " ++
    Text.ofNat report.aggregatedFiles ++ " aggregated, " ++ Text.ofNat report.unitsFound ++
    " unit(s), " ++ Text.ofNat report.rejected ++ " rejected, " ++ Text.ofNat report.skipped ++
    " skipped")

/-- The line with what became of the recording. -/
def outcomeLine (outcome : Outcome) : Text :=
  let told : Text :=
    match outcome with
    | .duplicate => "duplicate, another run recorded this release first"
    | _ => outcome.name
  indented ("ledger: " ++ told)

/-- The line with the number of examples. -/
def countLine (request : ExtractRequest) (files : List Path) : Text :=
  "✓ " ++ (if request.dryRun then "Found " else "Harvested ") ++ Text.ofNat files.length ++
    " example(s) for " ++ request.mention

def harvestLines (request : ExtractRequest) (summary : ExtractionSummary) (report : HarvestReport) :
    List Text :=
  let files := if request.dryRun then summary.files else []
  [request.countLine summary.files, reportLine report] ++
    (summary.outcome?.map outcomeLine).toList ++ files.map indented

def answer (request : ExtractRequest) (summary : ExtractionSummary) : Answer :=
  match request.format with
  | .json => .json (request.summaryJson summary)
  | .text =>
    match summary.report? with
    | none => .lines ["Skipped " ++ request.mention ++ " is already recorded"]
    | some report => .lines (request.harvestLines summary report)

/-- The answer about an extraction, or why it failed. -/
def conclude (request : ExtractRequest) (result : Except ExtractionFailure ExtractionSummary) :
    Except CommandFailure Answer :=
  (result.mapError request.failureOf).map request.answer

def executeWith (request : ExtractRequest) (path : Path) (extraction : Extraction)
    (oracle : Oracle) (disk : Disk) : Executed :=
  match disk.openLedger path with
  | (disk, .error failure) => ⟨disk, .error (.during ("Failed to open ledger " ++ path) failure)⟩
  | (disk, .ok opened) =>
    let extracted := extraction.run oracle disk opened
    ⟨extracted.disk.storeLedger extracted.opened, request.conclude extracted.result⟩

/-- Extracts a release, or says what would be extracted, with this oracle to answer for the examples. -/
def executeAsking (request : ExtractRequest) (config : Config) (now : Instant) (oracle : Oracle)
    (disk : Disk) : Executed :=
  match request.extraction config now with
  | .error failure => ⟨disk, .error failure⟩
  | .ok extraction =>
    if request.dryRun then ⟨disk, request.conclude (extraction.preview oracle disk)⟩
    else request.executeWith (request.ledgerPath config) extraction oracle disk

/-- Extracts a release, or says what would be extracted. -/
def execute (request : ExtractRequest) (config : Config) (now : Instant) (disk : Disk) : Executed :=
  request.executeAsking config now (request.oracle config) disk

end ExtractRequest

end SampleHarvest
