import SampleHarvest.CommandLine.Run
import SampleHarvest.Proofs.Extraction.Repetition

/-!
# Previews

A preview opens no ledger and leaves the disk as it is, whatever becomes of it. If a run writes or
replaces its release, the preview of the same request finds the same files and the same counters,
but for the documents that are written.

The run opens its ledger before it reads the sources, and the preview reads them without. So the
folder of the sources has to be there before folders are made for the ledger, and the lock file must
not become a source, which it can through a link.
-/

namespace SampleHarvest

/-! ### Candidate files and the ledger -/

namespace Disk

variable {disk start : Disk} {rules : DialectRules} {sources path : Path} {folder base : Location}
  {name : Text} {place : Location × Text} {place? : Option (Location × Text)}

/-- The lock file of the ledger was there before, or is no candidate in the folder of the sources. -/
def LocksBeside (disk start : Disk) (rules : DialectRules) (sources path : Path) : Prop :=
  ∀ base folders name, disk.IsCandidatePlace rules sources base folders name →
    start.fileAt? (lockPath path) = some (base ++ folders ++ [name]) →
      disk.root.look (base ++ folders ++ [name]) ≠ .nothing

theorem openingFrom_spares (hlock : disk.LocksBeside start rules sources path)
    (houtside : ∀ place, place? = some place → ¬disk.IsBelow sources (place.1 ++ [place.2]))
    (hleads : LeadsTo disk.root base maxLinks (disk.start sources) (Text.splitOn '/' sources)) :
    (Scope.openingFrom disk start path place?).Spares rules base := by
  constructor
  · rintro folders name (⟨hplace, hnothing⟩ | ⟨place, hplace, hfile⟩) haccepted
    · by_contra hnone
      have hsearched : ∀ folder ∈ folders, ¬isSkippedFolder folder :=
        fun folder hmem hskipped => hnone ⟨folder, hmem, hskipped⟩
      exact hlock base folders name ⟨hleads, haccepted, hsearched⟩ hplace hnothing
    · exact absurd (List.prefix_append base folders)
        (hfile.not_prefix (houtside place hplace) hleads)
  · rintro folder name ⟨place, hplace, hleft⟩
    exact IsLedgerFile.not_prefix (Or.inr hleft) (houtside place hplace) hleads

end Disk

/-! ### What a preview tells -/

theorem Harvester.harvest_written {harvester : Harvester} {disk : Disk} {sources : Path}
    {harvest : Harvest} (h : harvester.harvest disk sources = .ok harvest) :
    harvest.report.written = 0 := by
  obtain ⟨files, rfl⟩ := exists_harvest_eq h
  rfl

/-- What a preview tells of what is done. -/
def ExtractionSummary.foretold (summary : ExtractionSummary) : ExtractionSummary where
  outcome? := none
  files := summary.files
  report? := summary.report?.map fun report => { report with written := 0 }

namespace Extraction

variable {extraction : Extraction} {oracle : Oracle} {disk start : Disk} {path : Path}
  {opened : OpenLedger} {summary : ExtractionSummary} {harvest : Harvest}

/-- A preview tells what will be recorded with the harvest. -/
theorem preview_eq (h : extraction.harvest oracle disk = .ok harvest) (outcome : Outcome) :
    extraction.preview oracle disk = .ok (recorded harvest outcome).foretold := by
  have hreport : { harvest.report with written := 0 } = harvest.report := by
    rw [← Harvester.harvest_written (harvester_harvest h)]
  rw [preview, h, ExtractionSummary.foretold, recorded]
  dsimp only [Option.map_some]
  rw [hreport]
  rfl

theorem harvest_before (hopen : disk.openLedger path = (start, .ok opened))
    (hnames : disk.root.HasFileNames) (hdistinct : disk.root.HasDistinctNames)
    (hfolder : disk.hasFolder extraction.sources)
    (hlock : disk.LocksBeside start extraction.dialect.rules extraction.sources path)
    (houtside : ∀ place, opened.place? = some place →
      ¬disk.IsBelow extraction.sources (place.1 ++ [place.2]))
    (h : extraction.harvest oracle start = .ok harvest) :
    extraction.harvest oracle disk = .ok harvest := by
  have hbefore := Harvester.harvest_before (Disk.openLedger_changesFrom hopen) hnames hdistinct
    hfolder (fun _ hleads => Disk.openingFrom_spares hlock houtside hleads) (harvester_harvest h)
  exact congrArg (Except.mapError ExtractionFailure.harvest) hbefore

end Extraction

namespace ExtractRequest

variable {request : ExtractRequest} {config : Config} {now : Instant} {oracle : Oracle}
  {disk start : Disk} {extraction : Extraction} {opened : OpenLedger} {summary : ExtractionSummary}

def dry (request : ExtractRequest) : ExtractRequest := { request with dryRun := true }

/-- A preview leaves the disk as it is. -/
theorem execute_dry_disk (request : ExtractRequest) (config : Config) (now : Instant) (disk : Disk) :
    (request.dry.execute config now disk).disk = disk := by
  rw [execute, executeAsking]
  cases request.dry.extraction config now <;> rfl

theorem run_dry_disk (request : ExtractRequest) (config? : Option Path)
    (surroundings : Surroundings) (disk : Disk) :
    (Invocation.run ⟨config?, .extract request.dry⟩ surroundings disk).disk = disk := by
  have hexecute : (Invocation.execute ⟨config?, .extract request.dry⟩ surroundings disk).disk =
      disk := by
    rw [Invocation.execute]
    cases Config.load surroundings disk config? with
    | error failure => rfl
    | ok config => exact request.execute_dry_disk config surroundings.now disk
  rw [Invocation.run, Executed.run]
  split
  · exact hexecute
  · split_ifs <;> exact hexecute

/-- A time of publication that can be told once can be told at any time. -/
theorem exists_publishedAt {published : Instant} (h : request.publishedAt now = .ok published)
    (later : Instant) : ∃ published, request.publishedAt later = .ok published := by
  rw [publishedAt] at h ⊢
  cases hgiven : request.published? with
  | none => exact ⟨later, rfl⟩
  | some t =>
      rw [hgiven] at h
      exact ⟨published, h⟩

/-- A preview is about the same extraction, but for the time of publication. -/
theorem exists_extraction_dry (h : request.extraction config now = .ok extraction)
    (later : Instant) :
    ∃ published, request.dry.extraction config later = .ok { extraction with published } := by
  obtain ⟨hconcurrency, published, hpublished, rfl⟩ := extraction_ok_iff.mp h
  obtain ⟨published, hlater⟩ := exists_publishedAt hpublished later
  exact ⟨published, extraction_ok_iff.mpr ⟨hconcurrency, published, hlater, rfl⟩⟩

/-- A run that is no preview, with its ledger file outside of the sources, wrote or replaced its
release. -/
structure RunsTo (request : ExtractRequest) (config : Config) (now : Instant) (oracle : Oracle)
    (disk start : Disk) (extraction : Extraction) (opened : OpenLedger)
    (summary : ExtractionSummary) : Prop where
  real : request.dryRun = false
  asks : request.extraction config now = .ok extraction
  opens : disk.openLedger (request.ledgerPath config) = (start, .ok opened)
  outside : ∀ place, opened.place? = some place →
    ¬start.IsBelow request.sources (place.1 ++ [place.2])
  result : (extraction.run oracle start opened).result = .ok summary
  outcome : summary.outcome? = some .written ∨ summary.outcome? = some .replaced

/-- The preview of a request tells what its run does. -/
structure Foretells (request : ExtractRequest) (config : Config) (now : Instant) (oracle : Oracle)
    (disk : Disk) (extraction : Extraction) (summary : ExtractionSummary) : Prop where
  counts : summary.report?.isSome
  /-- The preview tells of the same files and counters, but for the documents written. -/
  preview : extraction.preview oracle disk = .ok summary.foretold
  answers : oracle = request.oracle config →
    (request.execute config now disk).result = .ok (request.answer summary) ∧
      ∀ later, (request.dry.execute config later disk).result =
        .ok (request.dry.answer summary.foretold)

theorem execute_dry (h : request.extraction config now = .ok extraction) (later : Instant)
    (hpreview : extraction.preview (request.oracle config) disk = .ok summary) :
    (request.dry.execute config later disk).result = .ok (request.dry.answer summary) := by
  obtain ⟨published, hextraction⟩ := exists_extraction_dry h later
  have hsame : ({ extraction with published } : Extraction).preview (request.oracle config) disk =
      .ok summary := hpreview
  rw [execute, executeAsking, hextraction]
  change request.dry.conclude _ = _
  rw [show request.dry.oracle config = request.oracle config from rfl, hsame]
  rfl

theorem RunsTo.foretells
    (h : request.RunsTo config now oracle disk start extraction opened summary)
    (hnames : disk.root.HasFileNames) (hdistinct : disk.root.HasDistinctNames)
    (hfolder : disk.hasFolder request.sources)
    (hlock : disk.LocksBeside start request.dialect.rules request.sources
      (request.ledgerPath config)) :
    request.Foretells config now oracle disk extraction summary := by
  obtain ⟨-, harvest, -, outcome, -, hharvest, -, -, -, rfl⟩ :=
    Extraction.run_recorded h.result h.outcome
  have hpreview : extraction.preview oracle disk =
      .ok (Extraction.recorded harvest outcome).foretold := by
    -- The sources and the dialect of the extraction are those of the request.
    obtain ⟨-, published, -, rfl⟩ := extraction_ok_iff.mp h.asks
    refine Extraction.preview_eq (Extraction.harvest_before h.opens hnames hdistinct hfolder hlock
      (fun place hplace hbelow => ?_) hharvest) outcome
    exact h.outside place hplace (hbelow.changes (Disk.openLedger_changesFrom h.opens))
  refine ⟨rfl, hpreview, ?_⟩
  rintro rfl
  refine ⟨?_, fun later => execute_dry h.asks later hpreview⟩
  rw [execute, executeAsking_eq h.real h.asks, executeWith_ok h.opens, h.result]
  rfl

/-- **Previews.** A preview changes nothing on the disk. If the run wrote or replaced its release, the
preview before it tells of the same files in the same order and of the same counters, with no
documents written. For this the folder of the sources has to be there before the run, and the lock
file of the ledger too if it is a candidate there. -/
theorem preview_foretells (request : ExtractRequest) :
    (∀ config? surroundings disk,
      (Invocation.run ⟨config?, .extract request.dry⟩ surroundings disk).disk = disk) ∧
    ∀ config now oracle disk start extraction opened summary,
      request.RunsTo config now oracle disk start extraction opened summary →
      disk.root.HasFileNames → disk.root.HasDistinctNames →
      disk.hasFolder request.sources →
      disk.LocksBeside start request.dialect.rules request.sources (request.ledgerPath config) →
      request.Foretells config now oracle disk extraction summary :=
  ⟨request.run_dry_disk, fun _ _ _ _ _ _ _ _ h hnames hdistinct hfolder hlock =>
    h.foretells hnames hdistinct hfolder hlock⟩

/-! ### A link in the place of a lock file -/

/-- A disk with one source file, an empty folder and a link into it, where a lock file may be made. -/
def linkedLock : Disk where
  root := .folder
    [("in", .folder [("b_test.go", .file (.bytes (Utf8.encode
        "// x-ms-original-file: a/examples/B.json\nfunc B() \x7b\n\x7d\n")))]),
      ("new", .folder []), ("l.lock", .link "new/a_test.go")]
  workingFolder := []

/-- The ledger when it is open, with no rows yet. -/
def newLedgerAt (place : Location × Text) : OpenLedger where
  ledger := .empty
  place? := some place

/-- What is done if a file without examples is scanned. -/
def bareSummary : ExtractionSummary where
  outcome? := some .written
  files := []
  report? := some { filesScanned := 1 }

structure Computes (sources ledger : Path) (folder : Location) (place : Location × Text)
    (summary : ExtractionSummary) : Prop where
  opens : (linkedLock.openLedger ledger).2.toOption = some (newLedgerAt place)
  found : (linkedLock.openLedger ledger).1.folderAt? sources = some folder
  outside : ¬folder <+: place.1 ++ [place.2]
  result : ((firstExtraction sources "out").run .acceptAll (linkedLock.openLedger ledger).1
    (newLedgerAt place)).result.toOption = some summary

theorem Computes.runsTo {sources ledger : Path} {folder : Location} {place : Location × Text}
    (h : Computes sources ledger folder place summary) (houtcome : summary.outcome? = some .written) :
    (versionIn sources "out" ledger).RunsTo plainSettings ⟨0, 0⟩ .acceptAll linkedLock
      (linkedLock.openLedger ledger).1 (firstExtraction sources "out") (newLedgerAt place)
      summary where
  real := rfl
  asks := versionIn_extraction sources "out" ledger
  opens := Prod.ext rfl (eq_ok_of_toOption h.opens)
  outside := by
    rintro other hother ⟨base, hleads, hin⟩
    obtain rfl : place = other := Option.some.inj hother
    obtain ⟨-, hfound⟩ := Disk.folderAt?_eq_some_iff.mp h.found
    rw [hleads.unique hfound] at hin
    exact h.outside hin
  result := eq_ok_of_toOption h.result
  outcome := Or.inl houtcome

theorem linkedLock_hasFileNames : linkedLock.root.HasFileNames := by
  have hall : ∀ name ∈ (["in", "new", "l.lock"] : List Text),
      ¬Path.isIdlePart name ∧ name ≠ ".." ∧ '/' ∉ name := by decide
  refine .folder (fun entry hentry => hall entry.1 (List.mem_map_of_mem hentry))
    (List.forall_mem_cons.mpr ⟨?_, List.forall_mem_cons.mpr ⟨?_, List.forall_mem_singleton.mpr ?_⟩⟩)
  · exact .folder (List.forall_mem_singleton.mpr ⟨by decide, by decide, by decide⟩)
      (List.forall_mem_singleton.mpr (.file _))
  · exact .folder (List.forall_mem_nil _) (List.forall_mem_nil _)
  · exact .link _

theorem linkedLock_hasDistinctNames : linkedLock.root.HasDistinctNames := by
  refine .folder (by decide)
    (List.forall_mem_cons.mpr ⟨?_, List.forall_mem_cons.mpr ⟨?_, List.forall_mem_singleton.mpr ?_⟩⟩)
  · exact .folder (List.nodup_singleton _) (List.forall_mem_singleton.mpr (.file _))
  · exact .folder List.nodup_nil (List.forall_mem_nil _)
  · exact .link _

theorem computes_beside : Computes "in" "m.db" ["in"] ([], "m.db") firstSummary := by
  refine ⟨?_, ?_, ?_, ?_⟩ <;> decide +kernel

/-- A folder is made for the ledger, and then the path leads to the sources. -/
theorem computes_folder : Computes "led/../in" "led/l.db" ["in"] (["led"], "l.db") firstSummary := by
  refine ⟨?_, ?_, ?_, ?_⟩ <;> decide +kernel

/-- The lock file is made as a file that is scanned. -/
theorem computes_lock : Computes "new" "l.db" ["new"] ([], "l.db") bareSummary := by
  refine ⟨?_, ?_, ?_, ?_⟩ <;> decide +kernel

/-- A run with a ledger whose lock file has its own name, to which the theorem above applies. -/
theorem preview_foretells_beside :
    (versionIn "in" "out" "m.db").RunsTo plainSettings ⟨0, 0⟩ .acceptAll linkedLock
        (linkedLock.openLedger "m.db").1 (firstExtraction "in" "out") (newLedgerAt ([], "m.db"))
        firstSummary ∧
      linkedLock.root.HasFileNames ∧ linkedLock.root.HasDistinctNames ∧ linkedLock.hasFolder "in" ∧
      linkedLock.LocksBeside (linkedLock.openLedger "m.db").1 Dialect.go.rules "in" "m.db" ∧
      (versionIn "in" "out" "m.db").Foretells plainSettings ⟨0, 0⟩ .acceptAll linkedLock
        (firstExtraction "in" "out") firstSummary := by
  have hruns := computes_beside.runsTo rfl
  have hfolder : linkedLock.hasFolder "in" := by decide +kernel
  have hlock : linkedLock.LocksBeside (linkedLock.openLedger "m.db").1 Dialect.go.rules "in"
      "m.db" := by
    intro base folders name hcandidate hplace
    have hfile : (linkedLock.openLedger "m.db").1.fileAt? (Disk.lockPath "m.db") =
        some ([] ++ [("m.lock" : Text)]) := by decide +kernel
    obtain rfl : name = "m.lock" :=
      List.singleton_inj.mp (List.append_inj' (Option.some.inj (hplace.symm.trans hfile)) rfl).2
    exact absurd hcandidate.accepted (by decide)
  exact ⟨hruns, linkedLock_hasFileNames, linkedLock_hasDistinctNames, hfolder, hlock,
    (preview_foretells _).2 _ _ _ _ _ _ _ _ hruns linkedLock_hasFileNames
      linkedLock_hasDistinctNames hfolder hlock⟩

/-- Both conditions are needed. A folder that is made for the ledger can make a path lead to the
sources, and a lock file that is made through a link can be a file that is scanned. -/
theorem preview_without_conditions :
    (¬∀ (request : ExtractRequest) (config : Config) (now : Instant) (oracle : Oracle)
        (disk start : Disk) (extraction : Extraction) (opened : OpenLedger)
        (summary : ExtractionSummary),
      request.RunsTo config now oracle disk start extraction opened summary →
      disk.root.HasFileNames → disk.root.HasDistinctNames →
      disk.LocksBeside start request.dialect.rules request.sources (request.ledgerPath config) →
      request.Foretells config now oracle disk extraction summary) ∧
    ¬∀ (request : ExtractRequest) (config : Config) (now : Instant) (oracle : Oracle)
        (disk start : Disk) (extraction : Extraction) (opened : OpenLedger)
        (summary : ExtractionSummary),
      request.RunsTo config now oracle disk start extraction opened summary →
      disk.root.HasFileNames → disk.root.HasDistinctNames → disk.hasFolder request.sources →
      request.Foretells config now oracle disk extraction summary := by
  constructor
  · intro h
    have hmissing : ¬linkedLock.hasFolder "led/../in" := by decide +kernel
    have hparts : Disk.parts "led/../in" = .ok (Text.splitOn '/' "led/../in") := rfl
    have hforetells := h _ _ _ _ _ _ _ _ _ (computes_folder.runsTo rfl) linkedLock_hasFileNames
      linkedLock_hasDistinctNames fun base _ _ hcandidate =>
        absurd (Disk.hasFolder_iff.mpr ⟨hparts, base, hcandidate.leads⟩) hmissing
    have hfails : ((firstExtraction "led/../in" "out").preview .acceptAll linkedLock).toOption =
        none := by decide +kernel
    rw [hforetells.preview] at hfails
    cases hfails
  · intro h
    have hforetells := h _ _ _ _ _ _ _ _ _ (computes_lock.runsTo rfl) linkedLock_hasFileNames
      linkedLock_hasDistinctNames (by decide +kernel)
    have hscanned : ((firstExtraction "new" "out").preview .acceptAll linkedLock).toOption.bind
        (fun summary => summary.report?.map HarvestReport.filesScanned) = some 0 := by
      decide +kernel
    rw [hforetells.preview] at hscanned
    cases hscanned

end ExtractRequest

end SampleHarvest
