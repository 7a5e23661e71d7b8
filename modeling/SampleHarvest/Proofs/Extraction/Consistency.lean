import SampleHarvest.Proofs.Extraction.Stages

/-!
# Ledger and output root after one run

A run that is no preview ends in one of three ways. It fails, and the rows in the ledger file are
those from before. It skips a release that is recorded already, and changes nothing but what opening
the ledger changes. Or it writes all artifacts and then records them, so that the release owns
exactly these files and every other release keeps its rows.

The ledger file has to be outside the output root: a document that is written over the ledger file
takes its rows.
-/

namespace SampleHarvest

/-- No document below an output root ever has the file of a ledger or one that may be left beside
it, whatever folders and files are made or dropped. -/
def Disk.KeepsOutside (disk : Disk) (root : Path) (place : Location × Text) : Prop :=
  ∀ later, Changes .any disk later → ∀ location, later.HasDocumentAt root location →
    ¬IsLedgerFile place location

theorem Disk.KeepsOutside.changes {old new : Disk} {scope : Scope} {root : Path}
    {place : Location × Text} (h : old.KeepsOutside root place) (hchanges : Changes scope old new) :
    new.KeepsOutside root place :=
  fun later hlater => h later (hchanges.any.trans hlater)

namespace ExtractRequest

/-- The rows of the ledger at a path are those from before. -/
def KeepsRows (path : Path) (disk done : Disk) : Prop :=
  ∀ place, disk.ledgerSeat? path = some place → done.rowsAt? place = disk.rowsAt? place

structure Fails (path : Path) (disk : Disk) (done : Executed) : Prop where
  result : ∃ failure, done.result = .error failure
  rows : KeepsRows path disk done.disk

/-- A run that skipped its release. -/
structure Skips (request : ExtractRequest) (path : Path) (extraction : Extraction) (disk : Disk)
    (done : Executed) : Prop where
  /-- The release is recorded already and is to stay. -/
  recorded : ∃ start opened, disk.openLedger path = (start, .ok opened) ∧ extraction.Skips opened
  result : done.result = .ok (request.answer Extraction.skipped)
  /-- It is the same whatever the oracle would answer. -/
  oracle : ∀ oracle, request.executeWith path extraction oracle disk = done
  rows : KeepsRows path disk done.disk
  /-- But for the own files of the ledger, nothing changes on the disk. Only folders above the
  ledger are made if they are missing. -/
  elsewhere : ∀ location, ¬done.disk.IsOwnFile path (disk.ledgerSeat? path) location →
    done.disk.root.look location = disk.root.look location ∨
      disk.root.look location = .nothing ∧ done.disk.root.look location = .folder ∧
        (disk.createLedgerFolder path).1.root.look location = .folder

/-- A run that recorded its release, with the ledger as it was opened, the harvest, the disk with the
artifacts and the rows after the recording. -/
structure Records (request : ExtractRequest) (path : Path) (extraction : Extraction)
    (oracle : Oracle) (disk : Disk) (done : Executed) (opened : OpenLedger) (harvest : Harvest)
    (written : Disk) (rows : Ledger) : Prop where
  /-- First the ledger is opened, then the sources are harvested, then all artifacts are written. -/
  stages : ∃ start, disk.openLedger path = (start, .ok opened) ∧
    extraction.harvest oracle start = .ok harvest ∧
    start.publishAll extraction.output harvest.artifacts =
      (written, .ok (harvest.artifacts.map Artifact.path))
  /-- The release is new or takes the place of the one that was recorded. -/
  outcome : done.result = .ok (request.answer (Extraction.recorded harvest
    (if opened.ledger.isRecorded extraction.name extraction.language then .replaced
      else .written)))
  /-- As many artifacts were written and accepted as files are told of. -/
  accepted : harvest.report.accepted = (harvest.artifacts.map Artifact.path).length
  /-- Every artifact has a file, and after the run it still holds the last document that was written
  there. -/
  artifacts : ∀ artifact ∈ harvest.artifacts, ∃ location last,
    written.documentAt? extraction.output artifact = some location ∧
    written.lastAt? extraction.output harvest.artifacts location = some last ∧
    ∀ disk ∈ [written, done.disk],
      disk.readContent (Path.join extraction.output artifact.path) =
        .ok (.bytes (Utf8.encode last.content))
  /-- When all artifacts are written, the rows are still those from before. -/
  before : ∀ place, disk.ledgerSeat? path = some place →
    disk.rowsAt? place = some opened.ledger ∧ written.rowsAt? place = some opened.ledger
  after : ∀ place, disk.ledgerSeat? path = some place → done.disk.rowsAt? place = some rows
  /-- The release owns exactly the files that are told of, each once. -/
  files : (rows.filesOf extraction.name extraction.language).Perm
      (harvest.artifacts.map Artifact.path) ∧
    (harvest.artifacts.map Artifact.path).Nodup
  sorted : (rows.filesOf extraction.name extraction.language).Pairwise fun a b =>
    Bytes.IsBefore (Utf8.encode a) (Utf8.encode b)
  others : (rows.remove extraction.name extraction.language).2 =
    (opened.ledger.remove extraction.name extraction.language).2

variable {request : ExtractRequest} {path : Path} {extraction : Extraction} {oracle : Oracle}
  {disk start : Disk} {opened : OpenLedger} {place : Location × Text}

/-! ### The rows -/

/-- Until the rows are stored, those at the place of the ledger are those from before. -/
theorem rowsAt?_run (oracle : Oracle) (hopen : disk.openLedger path = (start, .ok opened))
    (hplace : disk.ledgerSeat? path = some place)
    (houtside : disk.KeepsOutside extraction.output place) :
    disk.rowsAt? place = some opened.ledger ∧
      (extraction.run oracle start opened).disk.rowsAt? place = some opened.ledger := by
  obtain ⟨hbefore, hstart⟩ := Disk.openLedger_rows hopen hplace
  have hrun := extraction.run_changes oracle start opened
  have hwrites := houtside.changes (Disk.openLedger_any hopen) _ hrun.any
  refine ⟨hbefore, ?_⟩
  rw [hrun.rowsAt?_eq (fun hwritten => hwrites _ hwritten (Or.inl rfl)) id, hstart]

/-- The file of the ledger is there when the run is over. -/
theorem run_hasSeat (extraction : Extraction) (oracle : Oracle)
    (hopen : disk.openLedger path = (start, .ok opened)) (next : OpenLedger)
    (hnext : next.place? = opened.place?) :
    (extraction.run oracle start opened).disk.HasSeat next := by
  intro place hplace
  obtain ⟨content, hfile⟩ :=
    (Disk.openLedger_isOpen hopen).hasSeat place (hnext.symm.trans hplace)
  exact (extraction.run_changes oracle start opened).file_stays id hfile

/-! ### The three ends -/

/-- After the rows are stored every artifact still has its file with the document that was written
there last. -/
theorem artifacts_stored {harvest : Harvest} {written : Disk} {next : OpenLedger} {paths : List Path}
    (hpublish : start.publishAll extraction.output harvest.artifacts = (written, .ok paths))
    (hcontained : ∀ artifact ∈ harvest.artifacts, artifact.target.isContained)
    (hseat : written.HasSeat next)
    (houtside : ∀ place, next.place? = some place → ∀ location,
      written.HasDocumentAt extraction.output location → ¬Disk.IsLedgerFile place location)
    {artifact : Artifact} (hmem : artifact ∈ harvest.artifacts) : ∃ location last,
    written.documentAt? extraction.output artifact = some location ∧
    written.lastAt? extraction.output harvest.artifacts location = some last ∧
    ∀ disk ∈ [written, written.storeLedger next],
      disk.readContent (Path.join extraction.output artifact.path) =
        .ok (.bytes (Utf8.encode last.content)) := by
  obtain ⟨location, hplace⟩ := Disk.exists_documentAt? hpublish hmem
  obtain ⟨last, hlast⟩ := Option.isSome_iff_exists.mp (Disk.lastAt?_isSome hmem hplace)
  have hlook := Disk.look_of_lastAt? hpublish hlast
  let own : Location → Prop := fun location =>
    ∃ place, next.place? = some place ∧ Disk.IsLedgerFile place location
  have hstored : Disk.Changes ⟨fun _ => False, own, own⟩ written (written.storeLedger next) :=
    Disk.storeLedger_changes hseat (fun place hnext => ⟨place, hnext, Or.inl rfl⟩)
      fun place hnext location hleft => ⟨place, hnext, Or.inr hleft⟩
  have hown : ¬own location := by
    rintro ⟨place, hnext, hledger⟩
    exact houtside place hnext location ⟨artifact.target, hcontained artifact hmem, hplace⟩ hledger
  refine ⟨location, last, hplace, hlast, ?_⟩
  rw [List.forall_mem_cons, List.forall_mem_singleton]
  exact ⟨Disk.readContent_of_fileAt? hplace hlook,
    Disk.readContent_of_fileAt? (hstored.fileAt? hown hplace) (hstored.look_file hown hown hlook)⟩

theorem records {harvest : Harvest} {made : Disk} {outcome : Outcome} {next : OpenLedger}
    (hopen : disk.openLedger path = (start, .ok opened)) (hsound : opened.ledger.IsSound)
    (houtside : ∀ place, disk.ledgerSeat? path = some place →
      disk.KeepsOutside extraction.output place)
    (hskips : ¬extraction.Skips opened)
    (hharvest : extraction.harvest oracle start = .ok harvest)
    (hpublish : start.publishAll extraction.output harvest.artifacts =
      (made, .ok (harvest.artifacts.map Artifact.path)))
    (hrecord : opened.record (extraction.recording (harvest.artifacts.map Artifact.path))
      extraction.policy = .ok (outcome, next))
    (hrun : extraction.run oracle start opened =
      ⟨made, next, .ok (Extraction.recorded harvest outcome)⟩) :
    request.Records path extraction oracle disk
      (request.executeWith path extraction oracle disk) opened harvest made next.ledger := by
  obtain ⟨hcontained, hnodup⟩ := Extraction.harvest_artifacts hharvest
  obtain ⟨hwrite, ledger, hledger, rfl⟩ := OpenLedger.record_rows hrecord
  have hreject : ¬(opened.ledger.isRecorded extraction.name extraction.language ∧
      extraction.policy = .reject) := fun h => hskips h.symm
  obtain ⟨hperm, hsorted⟩ := hsound.filesOf_record hreject hledger hnodup
  have hplaces := Disk.openLedger_place hopen
  have hmade : (extraction.run oracle start opened).disk = made := by rw [hrun]
  have hseat := run_hasSeat extraction oracle hopen { opened with ledger } rfl
  have hrows := fun place hplace =>
    rowsAt?_run oracle hopen hplace (houtside place hplace)
  have hchanges := extraction.run_changes oracle start opened
  rw [hmade] at hseat hrows hchanges
  rw [executeWith_ok hopen, hrun]
  exact
    { stages := ⟨start, hopen, hharvest, hpublish⟩
      outcome := by
        rw [((Ledger.record_ok_iff hreject).mp hledger).2.2]
        rfl
      accepted := by
        rw [List.length_map]
        exact Harvester.harvest_accepted (Extraction.harvester_harvest hharvest)
      artifacts := fun artifact hmem => by
        refine artifacts_stored hpublish hcontained hseat (fun place hplace => ?_) hmem
        exact (houtside place (hplaces.symm.trans hplace)).changes (Disk.openLedger_any hopen) _
          hchanges.any
      before := hrows
      after := fun place hplace => by
        rw [Disk.rowsAt?_storeLedger hseat (hplaces.trans hplace), hwrite]
        rfl
      files := ⟨hperm, hnodup⟩
      sorted := hsorted
      others := hsound.without_record hreject hledger }

/-- The request to extract the first version of a package and record it in a ledger. -/
def firstVersion (ledger : Path) : ExtractRequest where
  dialect := .go
  sources := "in"
  output := "out"
  tag := "1"
  package := "p"
  version := "1"
  sdkName? := none
  name? := none
  published? := some "2024-03-05"
  validate? := none
  validateArguments := []
  concurrency? := none
  policy? := none
  ledger? := some ledger
  dryRun := false
  format := .json

/-- Settings without a validation program. -/
def plainSettings : Config where
  ledger := { path := "ledger.db", onDuplicate := .reject }
  validation := { concurrency := 1, timeoutSeconds? := none, command? := none, arguments := [] }
  docs := { go? := none, javaScript? := none, java? := none }

end ExtractRequest

end SampleHarvest
