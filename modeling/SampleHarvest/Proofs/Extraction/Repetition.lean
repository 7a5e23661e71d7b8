import SampleHarvest.Proofs.Extraction.Consistency
import SampleHarvest.Proofs.Harvest.Before
import SampleHarvest.Proofs.Harvest.Scheduling
import SampleHarvest.Proofs.Ledger.Finding

/-!
# The same extraction again

A run that recorded its release can be repeated. Under the policy to reject the second run skips the
release and changes nothing at all. Under the policy to replace it harvests the same sources, writes
the same documents to the same files and records the same rows with the same numbers.

This needs the ledger, the documents and the candidate files in the sources to be apart. After the
first run the ledger has to be found by its path, and for the policy to replace the sources have to be
readable: a folder that the first run made in them may have a path that is too long.
-/

namespace SampleHarvest

namespace Disk

variable {disk : Disk} {rules : DialectRules} {sources path : Path} {folder base : Location}
  {name : Text} {place : Location × Text}

/-- The documents below the output root, the files of the ledger and the sources of an extraction
are apart. -/
structure KeepsApart (disk : Disk) (extraction : Extraction) (place : Location × Text) : Prop where
  documents : ∀ location, disk.HasDocumentAt extraction.output location →
    ¬IsLedgerFile place location
  /-- No document has the place of a candidate file. -/
  candidates : ∀ base folders name,
    disk.IsCandidatePlace extraction.dialect.rules extraction.sources base folders name →
      ¬disk.HasDocumentAt extraction.output (base ++ folders ++ [name])
  ledger : ¬disk.IsBelow extraction.sources (place.1 ++ [place.2])

theorem IsLedgerFile.folder_eq (h : IsLedgerFile place (folder ++ [name])) : folder = place.1 := by
  rcases h with hfile | ⟨other, -, hfile⟩
  · exact (List.append_inj' hfile rfl).1
  · exact (List.append_inj' hfile rfl).1

theorem IsLedgerFile.not_prefix (h : IsLedgerFile place (folder ++ [name]))
    (houtside : ¬disk.IsBelow sources (place.1 ++ [place.2]))
    (hleads : LeadsTo disk.root base maxLinks (disk.start sources) (Text.splitOn '/' sources)) :
    ¬base <+: folder := fun hin =>
  houtside ⟨base, hleads, (h.folder_eq ▸ hin).trans (List.prefix_append place.1 [place.2])⟩

end Disk

namespace Extraction

variable {extraction : Extraction} {oracle : Oracle} {disk start written : Disk}
  {opened : OpenLedger} {path : Path} {place : Location × Text} {harvest : Harvest}
  {outcome : Outcome} {ledger : Ledger}

def under (extraction : Extraction) (policy : Policy) : Extraction := { extraction with policy }

/-- A run that recorded its release, up to the point where the rows are stored. -/
structure Recorded (extraction : Extraction) (oracle : Oracle) (path : Path)
    (place : Location × Text) (disk start : Disk) (opened : OpenLedger) (harvest : Harvest)
    (written : Disk) (outcome : Outcome) (ledger : Ledger) : Prop where
  opens : disk.openLedger path = (start, .ok opened)
  seat : opened.place? = some place
  writes : opened.isReadOnly = false
  sound : opened.ledger.IsSound
  fresh : ¬extraction.Skips opened
  harvests : extraction.harvest oracle start = .ok harvest
  publishes : start.publishAll extraction.output harvest.artifacts =
    (written, .ok (harvest.artifacts.map Artifact.path))
  records : opened.ledger.record (extraction.recording (harvest.artifacts.map Artifact.path))
    extraction.policy = .ok (outcome, ledger)
  apart : written.KeepsApart extraction place

/-- A run that wrote or replaced its release recorded it. -/
theorem exists_recorded {next : OpenLedger} {summary : ExtractionSummary}
    (hopen : disk.openLedger path = (start, .ok opened))
    (hrun : extraction.run oracle start opened = ⟨written, next, .ok summary⟩)
    (houtcome : summary.outcome? = some .written ∨ summary.outcome? = some .replaced)
    (hplace : opened.place? = some place) (hsound : opened.ledger.IsSound)
    (hapart : written.KeepsApart extraction place) :
    ∃ harvest outcome ledger, extraction.Recorded oracle path place disk start opened harvest written
      outcome ledger ∧ next = { opened with ledger } ∧ summary = recorded harvest outcome := by
  obtain ⟨hskips, harvest, made, outcome, next', hharvest, hpublish, hrecord, hrecorded, rfl⟩ :=
    run_recorded (by rw [hrun]) houtcome
  cases hrecorded.symm.trans hrun
  obtain ⟨hwrite, ledger, hledger, rfl⟩ := OpenLedger.record_rows hrecord
  exact ⟨harvest, outcome, ledger,
    ⟨hopen, hplace, hwrite, hsound, hskips, hharvest, hpublish, hledger, hapart⟩, rfl, rfl⟩

namespace Recorded

variable (h : extraction.Recorded oracle path place disk start opened harvest written outcome ledger)

include h

abbrev stored (_ : extraction.Recorded oracle path place disk start opened harvest written outcome
    ledger) : Disk := written.storeLedger { opened with ledger }

theorem changes : Disk.Changes (.writing (written.HasDocumentAt extraction.output)) start written := by
  have hchanges := start.publishAll_changes extraction.output harvest.artifacts
  rw [h.publishes] at hchanges
  refine hchanges.mono (fun _ => id) ?_ fun _ => id
  rintro location ⟨artifact, hmem, hplace⟩
  exact ⟨artifact.target, (harvest_artifacts h.harvests).1 artifact hmem, hplace⟩

theorem hasSeat : written.HasSeat { opened with ledger } := fun other hother => by
  obtain ⟨content, hfile⟩ := (Disk.openLedger_isOpen h.opens).hasSeat other hother
  exact h.changes.file_stays id hfile

theorem storing : Disk.Changes ⟨fun _ => False, Disk.IsLedgerFile place, Disk.IsLeftover place⟩
    written h.stored :=
  Disk.storeLedger_changesAt h.hasSeat h.seat

theorem isOpen : h.stored.IsOpen { opened with ledger } := by
  refine Disk.storeLedger_isOpen h.hasSeat h.writes fun other hother => ?_
  obtain rfl := Option.some.inj (h.seat.symm.trans hother)
  have hlog := (Disk.openLedger_isOpen h.opens).log place hother h.writes
  have hown : Disk.IsLedgerFile place (place.1 ++ [Disk.logName place.2]) :=
    Or.inr ⟨_, by simp, rfl⟩
  rw [Disk.firstByte?_eq] at hlog ⊢
  rcases h.changes.look_eq_or (fun hdocument => h.apart.documents _ hdocument hown) id with
    hsame | ⟨-, -, hfolder⟩
  · rw [hsame, hlog]
  · rw [hfolder]

/-- Where the documents and the rows are written. -/
abbrev scope (_ : extraction.Recorded oracle path place disk start opened harvest written outcome
    ledger) : Disk.Scope where
  makes _ := True
  writes location := written.HasDocumentAt extraction.output location ∨
    Disk.IsLedgerFile place location
  drops := Disk.IsLeftover place

theorem storing_all : Disk.Changes h.scope start h.stored :=
  Relation.ReflTransGen.trans (h.changes.mono (fun _ => id) (fun _ => Or.inl) fun _ => False.elim)
    (h.storing.mono (fun _ => False.elim) (fun _ => Or.inr) fun _ => id)

theorem opens_again (hfinds : h.stored.FindsLedger path place) :
    h.stored.openLedger path = (h.stored, .ok { opened with ledger }) :=
  Disk.openLedger_again h.opens h.seat h.writes h.storing_all (fun _ => id) h.isOpen hfinds

theorem isRecorded : ledger.isRecorded extraction.name extraction.language := by
  have hskips : ¬(opened.ledger.isRecorded extraction.name extraction.language ∧
      extraction.policy = .reject) := fun hskips => h.fresh hskips.symm
  obtain ⟨-, rfl, -⟩ := (Ledger.record_ok_iff hskips).mp h.records
  exact Ledger.isRecorded_insert (h.sound.find?_without _)

/-- Writing the documents and storing the rows spares the sources. -/
theorem spares {base : Location}
    (hleads : Disk.LeadsTo start.root base Disk.maxLinks (start.start extraction.sources)
      (Text.splitOn '/' extraction.sources)) :
    h.scope.Spares extraction.dialect.rules base := by
  have hlater : Disk.LeadsTo written.root base Disk.maxLinks (written.start extraction.sources)
      (Text.splitOn '/' extraction.sources) := by
    rw [h.changes.start_eq]
    exact hleads.keeps h.changes.keeps
  constructor
  · rintro folders name (hdocument | hledger) haccepted
    · by_contra hnone
      refine h.apart.candidates base folders name ⟨hlater, haccepted, fun folder hmem hskipped => ?_⟩
        hdocument
      exact hnone ⟨folder, hmem, hskipped⟩
    · exact absurd (List.prefix_append base folders)
        (hledger.not_prefix h.apart.ledger hlater)
  · intro folder name hleft
    exact Disk.IsLedgerFile.not_prefix (Or.inr hleft) h.apart.ledger hlater

/-- The sources give the same harvest again if they can be read. -/
theorem harvests_again (hnames : start.root.HasFileNames) (hdistinct : start.root.HasDistinctNames)
    (hread : ∃ entries, h.stored.CanRead extraction.sources entries) :
    extraction.harvest oracle h.stored = .ok harvest := by
  have hagain := Harvester.harvest_after h.storing_all hnames hdistinct
    (fun _ hleads => h.spares hleads) hread (harvester_harvest h.harvests)
  exact congrArg (Except.mapError ExtractionFailure.harvest) hagain

theorem not_own {artifact : Artifact} {location : Location} (hmem : artifact ∈ harvest.artifacts)
    (hplace : written.documentAt? extraction.output artifact = some location) :
    ¬Disk.IsLedgerFile place location := fun hledger =>
  h.apart.documents location
    ⟨artifact.target, (harvest_artifacts h.harvests).1 artifact hmem, hplace⟩ hledger

theorem publishes_again : ∃ again, h.stored.publishAll extraction.output harvest.artifacts =
      (again, .ok (harvest.artifacts.map Artifact.path)) ∧
    ∀ location, again.root.look location = h.stored.root.look location := by
  have hfiles : ∀ artifact ∈ harvest.artifacts,
      h.stored.documentAt? extraction.output artifact =
        written.documentAt? extraction.output artifact := by
    intro artifact hmem
    obtain ⟨location, hplace⟩ := Disk.exists_documentAt? h.publishes hmem
    have hdrops := mt Or.inr (h.not_own hmem hplace)
    exact (h.storing.fileAt? hdrops hplace).trans hplace.symm
  obtain ⟨again, hagain, hchanges⟩ := Disk.publishAll_again h.publishes h.storing.keeps
    h.storing.workingFolder_eq hfiles
  refine ⟨again, hagain, fun location => ?_⟩
  by_cases hdocument : ∃ artifact ∈ harvest.artifacts,
      written.documentAt? extraction.output artifact = some location
  · obtain ⟨artifact, hmem, hplace⟩ := hdocument
    have hown := h.not_own hmem hplace
    have hsame : ∀ other ∈ harvest.artifacts, again.documentAt? extraction.output other =
        written.documentAt? extraction.output other := by
      intro other hother
      obtain ⟨there, hthere⟩ := Disk.exists_documentAt? h.publishes hother
      exact (hchanges.fileAt? id ((hfiles other hother).trans hthere)).trans hthere.symm
    rw [Disk.look_again h.publishes hagain hsame hmem hplace,
      h.storing.look_eq id hown (mt Or.inr hown)]
  · exact hchanges.look_eq id hdocument id

/-- Under the policy to reject, the release is skipped. -/
theorem run_rejecting (oracle : Oracle) :
    (extraction.under .reject).run oracle h.stored { opened with ledger } =
      ⟨h.stored, { opened with ledger }, .ok skipped⟩ :=
  if_pos ⟨rfl, h.isRecorded⟩

/-- Under the policy to replace, the release is recorded as before. -/
theorem run_replacing (hnames : start.root.HasFileNames) (hdistinct : start.root.HasDistinctNames)
    (hread : ∃ entries, h.stored.CanRead extraction.sources entries) : ∃ again,
    (extraction.under .replace).run oracle h.stored { opened with ledger } =
      ⟨again, { opened with ledger }, .ok (recorded harvest .replaced)⟩ ∧
    ∀ location, again.root.look location = h.stored.root.look location := by
  obtain ⟨again, hagain, hlook⟩ := h.publishes_again
  refine ⟨again, ?_, hlook⟩
  have hskips : ¬(opened.ledger.isRecorded extraction.name extraction.language ∧
      extraction.policy = .reject) := fun hskips => h.fresh hskips.symm
  have hrecord : OpenLedger.record { opened with ledger }
      ((extraction.under .replace).recording (harvest.artifacts.map Artifact.path)) .replace =
        .ok (.replaced, { opened with ledger }) :=
    OpenLedger.record_of_rows h.writes (h.sound.record_again hskips h.records)
  have hharvest : (extraction.under .replace).harvest oracle h.stored = .ok harvest :=
    h.harvests_again hnames hdistinct hread
  have hpublish : h.stored.publishAll (extraction.under .replace).output harvest.artifacts = _ :=
    hagain
  have hreplaces : ¬(extraction.under .replace).Skips { opened with ledger } :=
    fun hskips => nomatch hskips.1
  rw [run, if_neg hreplaces, hharvest]
  dsimp only [publish]
  rw [hpublish]
  dsimp only
  rw [show (extraction.under .replace).policy = .replace from rfl, hrecord, recorded,
    List.length_map]

end Recorded

end Extraction

namespace ExtractRequest

variable {request : ExtractRequest} {config : Config} {now later : Instant}
  {extraction : Extraction} {oracle : Oracle} {disk start written : Disk}
  {opened next : OpenLedger} {summary : ExtractionSummary} {place : Location × Text}
  {policy : Policy}

def under (request : ExtractRequest) (policy : Policy) : ExtractRequest :=
  { request with policy? := some policy }

/-- With a fixed time of publication, the same is extracted later, but for the policy. -/
theorem extraction_under (hfixed : request.published?.isSome)
    (h : request.extraction config now = .ok extraction) :
    (request.under policy).extraction config later = .ok (extraction.under policy) := by
  obtain ⟨t, ht⟩ := Option.isSome_iff_exists.mp hfixed
  obtain ⟨hconcurrency, published, hpublished, rfl⟩ := extraction_ok_iff.mp h
  refine extraction_ok_iff.mpr ⟨hconcurrency, published, ?_, rfl⟩
  rw [publishedAt, ht] at hpublished
  rw [publishedAt, show (request.under policy).published? = some t from ht]
  exact hpublished

theorem executeAsking_recorded {path : Path} {harvest : Harvest} {outcome : Outcome} {ledger : Ledger}
    (h : extraction.Recorded oracle path place disk start opened harvest written outcome ledger)
    (hpath : request.ledgerPath config = path) (hreal : request.dryRun = false)
    (hextraction : request.extraction config now = .ok extraction)
    (hrun : extraction.run oracle start opened =
      ⟨written, { opened with ledger }, .ok (Extraction.recorded harvest outcome)⟩) :
    request.executeAsking config now oracle disk =
      ⟨h.stored, .ok (request.answer (Extraction.recorded harvest outcome))⟩ := by
  rw [executeAsking_eq hreal hextraction, hpath, executeWith_ok h.opens, hrun]
  rfl

/-- **Repetition.** After a run with any oracle that recorded its release, the same run under the
policy to reject skips the release whatever another oracle would answer, and leaves the disk as it
is. If the sources can still be read, with the same oracle the run under the policy to replace tells
of the same files and counters, and all files on the disk hold what they held, the ledger with the
numbers of its rows among them. -/
theorem execute_again (hreal : request.dryRun = false) (hfixed : request.published?.isSome)
    (hextraction : request.extraction config now = .ok extraction)
    (hopen : disk.openLedger (request.ledgerPath config) = (start, .ok opened))
    (hrun : extraction.run oracle start opened = ⟨written, next, .ok summary⟩)
    (houtcome : summary.outcome? = some .written ∨ summary.outcome? = some .replaced)
    (hplace : opened.place? = some place) (hsound : opened.ledger.IsSound)
    (hnames : start.root.HasFileNames) (hdistinct : start.root.HasDistinctNames)
    (hapart : written.KeepsApart extraction place)
    (hfinds : (request.executeAsking config now oracle disk).disk.FindsLedger
      (request.ledgerPath config) place) :
    let done := request.executeAsking config now oracle disk
    done.result = .ok (request.answer summary) ∧
    (∀ later other, (request.under .reject).executeAsking config later other done.disk =
      ⟨done.disk, .ok (request.answer Extraction.skipped)⟩) ∧
    ((∃ entries, done.disk.CanRead extraction.sources entries) → ∀ later,
      let again := (request.under .replace).executeAsking config later oracle done.disk
      again.result = .ok (request.answer { summary with outcome? := some .replaced }) ∧
      (∀ location, again.disk.root.look location = done.disk.root.look location) ∧
      again.disk.rowsAt? place = done.disk.rowsAt? place) := by
  obtain ⟨harvest, outcome, ledger, h, rfl, rfl⟩ :=
    Extraction.exists_recorded hopen hrun houtcome hplace hsound hapart
  rw [executeAsking_recorded h rfl hreal hextraction hrun] at hfinds ⊢
  have hagain := h.opens_again hfinds
  have hunder : ∀ policy later other,
      (request.under policy).executeAsking config later other h.stored =
        (request.under policy).executeWith (request.ledgerPath config) (extraction.under policy)
          other h.stored := fun policy later other =>
    executeAsking_eq hreal (extraction_under hfixed hextraction)
  refine ⟨rfl, fun later other => ?_, fun hread later => ?_⟩
  · rw [hunder, executeWith_ok hagain, h.run_rejecting other]
    dsimp only
    rw [h.isOpen.storeLedger_eq]
    rfl
  obtain ⟨again, hruns, hlook⟩ := h.run_replacing hnames hdistinct hread
  have hstored : again.storeLedger { opened with ledger } = again := by
    refine Disk.storeLedger_eq fun other hother hwrite => ?_
    rw [hlook, hlook]
    exact ⟨h.isOpen.stored other hother hwrite, h.isOpen.journal other hother hwrite⟩
  dsimp only
  rw [hunder, executeWith_ok hagain, hruns]
  dsimp only
  rw [hstored]
  exact ⟨rfl, hlook, Disk.rowsAt?_eq_of_look (hlook _)⟩

/-! ### Runs that record a release -/

/-- A disk with one source file, an empty output root and a journal that is left beside a ledger
file. -/
def leftJournal : Disk where
  root := .folder
    [("in", .folder [("b_test.go", .file (.bytes (Utf8.encode
        "// x-ms-original-file: a/examples/B.json\nfunc B() \x7b\n\x7d\n")))]),
      ("out", .folder []), ("l.db-journal", .file (.bytes [120]))]
  workingFolder := []

/-- The same disk with the ledger file and its lock file and without the journal. -/
def openedJournal (lock : Text) : Disk where
  root := .folder
    [("in", .folder [("b_test.go", .file (.bytes (Utf8.encode
        "// x-ms-original-file: a/examples/B.json\nfunc B() \x7b\n\x7d\n")))]),
      ("out", .folder []), ("l.db", .file (.ledger .empty)), (lock, .file (.bytes []))]
  workingFolder := []

/-- The request to extract the first version from some sources to an output root. -/
def versionIn (sources output ledger : Path) : ExtractRequest :=
  { firstVersion ledger with sources, output }

def firstExtraction (sources output : Path) : Extraction where
  dialect := .go
  release := .of .go "1" "p" "1" none
  name := Dialect.go.releaseName "p" "1"
  policy := .reject
  published := { seconds := 1709596800, nanos := 0 }
  sources
  output
  template? := none
  concurrency := 1

/-- The ledger when it is open, with no rows yet. -/
def newLedger : OpenLedger where
  ledger := .empty
  place? := some ([], "l.db")

def firstExtracted (sources output : Path) (lock : Text) : Extracted :=
  (firstExtraction sources output).run .acceptAll (openedJournal lock) newLedger

def firstSummary : ExtractionSummary where
  outcome? := some .written
  files := ["a/examples-go/B.md"]
  report? := some
    { filesScanned := 1
      aggregatedFiles := 1
      unitsFound := 1
      accepted := 1
      written := 1 }

theorem openedJournal_hasNoLinks (lock : Text) : (openedJournal lock).root.HasNoLinks := by
  refine Node.folder_hasNoLinks (List.forall_mem_cons.mpr ⟨?_, List.forall_mem_cons.mpr ⟨?_,
    List.forall_mem_cons.mpr ⟨?_, List.forall_mem_singleton.mpr ?_⟩⟩⟩)
  · exact Node.folder_hasNoLinks (List.forall_mem_singleton.mpr (Node.file_hasNoLinks _))
  · exact Node.folder_hasNoLinks (List.forall_mem_nil _)
  · exact Node.file_hasNoLinks _
  · exact Node.file_hasNoLinks _

theorem openedJournal_hasFileNames {lock : Text} (h : Path.IsFileName lock) :
    (openedJournal lock).root.HasFileNames := by
  have hall : ∀ name ∈ (["in", "out", "l.db", "b_test.go"] : List Text),
      ¬Path.isIdlePart name ∧ name ≠ ".." ∧ '/' ∉ name := by decide
  simp only [List.forall_mem_cons] at hall
  obtain ⟨hin, hout, hledger, hfile, -⟩ := hall
  refine .folder (List.forall_mem_cons.mpr ⟨hin, List.forall_mem_cons.mpr ⟨hout,
    List.forall_mem_cons.mpr ⟨hledger, List.forall_mem_singleton.mpr h⟩⟩⟩)
    (List.forall_mem_cons.mpr ⟨?_, List.forall_mem_cons.mpr ⟨?_,
      List.forall_mem_cons.mpr ⟨.file _, List.forall_mem_singleton.mpr (.file _)⟩⟩⟩)
  · exact .folder (List.forall_mem_singleton.mpr hfile) (List.forall_mem_singleton.mpr (.file _))
  · exact .folder (List.forall_mem_nil _) (List.forall_mem_nil _)

theorem openedJournal_hasDistinctNames {lock : Text}
    (h : ("in" :: "out" :: "l.db" :: [lock] : List Text).Nodup) :
    (openedJournal lock).root.HasDistinctNames := by
  refine .folder h (List.forall_mem_cons.mpr ⟨?_, List.forall_mem_cons.mpr ⟨?_,
    List.forall_mem_cons.mpr ⟨.file _, List.forall_mem_singleton.mpr (.file _)⟩⟩⟩)
  · exact .folder (List.nodup_singleton _) (List.forall_mem_singleton.mpr (.file _))
  · exact .folder List.nodup_nil (List.forall_mem_nil _)

theorem versionIn_extraction (sources output ledger : Path) :
    (versionIn sources output ledger).extraction plainSettings ⟨0, 0⟩ =
      .ok (firstExtraction sources output) := by
  have hpublished : (versionIn sources output ledger).publishedAt ⟨0, 0⟩ =
      .ok { seconds := 1709596800, nanos := 0 } := by
    have hparse : PublicationTime.parse? "2024-03-05" =
        some { seconds := 1709596800, nanos := 0 } := by decide +kernel
    rw [publishedAt,
      show (versionIn sources output ledger).published? = some "2024-03-05".toList from rfl]
    simp only [hparse]
  rw [extraction, hpublished]
  rfl

/-- The run with a ledger records the release. -/
structure IsFirstRun (sources output ledger : Path) (lock : Text) : Prop where
  opens : leftJournal.openLedger ledger = (openedJournal lock, .ok newLedger)
  names : Path.IsFileName lock ∧ ("in" :: "out" :: "l.db" :: [lock] : List Text).Nodup
  result : (firstExtracted sources output lock).result.toOption = some firstSummary
  folders : (firstExtracted sources output lock).disk.folderAt? sources = some [("in" : Text)] ∧
    (firstExtracted sources output lock).disk.folderAt? output = some [("out" : Text)]

theorem eq_ok_of_toOption {ε α : Type} {x : Except ε α} {a : α} (h : x.toOption = some a) :
    x = .ok a := by
  cases x with
  | error e => cases h
  | ok b => rw [Option.some.inj h]

namespace IsFirstRun

variable {sources output ledger : Path} {lock : Text}

theorem run_eq (h : IsFirstRun sources output ledger lock) :
    (firstExtraction sources output).run .acceptAll (openedJournal lock) newLedger =
      ⟨(firstExtracted sources output lock).disk, (firstExtracted sources output lock).opened,
        .ok firstSummary⟩ := by
  rw [← eq_ok_of_toOption h.result]
  rfl

theorem hasNoLinks (sources output : Path) (lock : Text) :
    (firstExtracted sources output lock).disk.root.HasNoLinks :=
  ((firstExtraction sources output).run_changes .acceptAll (openedJournal lock)
    newLedger).hasNoLinks (openedJournal_hasNoLinks lock)

theorem keepsApart (h : IsFirstRun sources output ledger lock) :
    (firstExtracted sources output lock).disk.KeepsApart (firstExtraction sources output)
      ([], "l.db") := by
  obtain ⟨hsources, houtput⟩ := h.folders
  have hin := (Disk.folderAt?_eq_some_iff.mp hsources).2
  have hout := (Disk.folderAt?_eq_some_iff.mp houtput).2
  have hdocument : ∀ location,
      (firstExtracted sources output lock).disk.HasDocumentAt output location →
        ∃ below : List Text, below ≠ [] ∧ location = ("out" : Text) :: below := by
    intro location hdocument
    obtain ⟨base, below, hroot, hbelow, rfl⟩ :=
      hdocument.isInside fun location _ target => hasNoLinks sources output lock location target
    obtain rfl := Disk.LeadsTo.unique hroot hout.baseParts
    exact ⟨below, hbelow, rfl⟩
  refine ⟨fun location hdoc hledger => ?_, fun base folders name hplace hdoc => ?_, ?_⟩
  · obtain ⟨below, hbelow, rfl⟩ := hdocument location hdoc
    rcases hledger with hsame | ⟨name, -, hsame⟩
    all_goals exact hbelow (List.cons.inj hsame).2
  · obtain rfl := hplace.leads.unique hin
    obtain ⟨below, -, hsame⟩ := hdocument _ hdoc
    exact absurd (List.cons.inj hsame).1 (by decide)
  · rintro ⟨base, hleads, hprefix⟩
    obtain rfl := hleads.unique hin
    exact absurd hprefix (by decide)

abbrev done (_ : IsFirstRun sources output ledger lock) : Disk :=
  ((versionIn sources output ledger).execute plainSettings ⟨0, 0⟩ leftJournal).disk

theorem done_changes (h : IsFirstRun sources output ledger lock) :
    ∃ scope, Disk.Changes scope (openedJournal lock) h.done := by
  obtain ⟨harvest, outcome, rows, hrecorded, hnext, hsummary⟩ := Extraction.exists_recorded h.opens
    h.run_eq (Or.inl rfl) rfl Ledger.empty_sound h.keepsApart
  have hrun := h.run_eq
  rw [hnext, hsummary] at hrun
  have hdone := executeAsking_recorded hrecorded rfl rfl
    (versionIn_extraction sources output ledger) hrun
  refine ⟨hrecorded.scope, ?_⟩
  rw [show h.done = hrecorded.stored from congrArg Executed.disk hdone]
  exact hrecorded.storing_all

theorem start_hasFileNames (h : IsFirstRun sources output ledger lock) :
    (openedJournal lock).root.HasFileNames :=
  openedJournal_hasFileNames h.names.1

theorem start_hasDistinctNames (h : IsFirstRun sources output ledger lock) :
    (openedJournal lock).root.HasDistinctNames :=
  openedJournal_hasDistinctNames h.names.2

theorem canRead (h : IsFirstRun sources output ledger lock)
    (hfound : (h.done.discover Dialect.go.rules sources).toOption.isSome) :
    ∃ entries, h.done.CanRead sources entries := by
  obtain ⟨scope, hchanges⟩ := h.done_changes
  have hsearchable := hchanges.isSearchable (.of_names h.start_hasFileNames h.start_hasDistinctNames)
  obtain ⟨files, hfiles⟩ := Option.isSome_iff_exists.mp hfound
  exact (Disk.exists_discover_iff hsearchable Dialect.go.rules).mp ⟨files, eq_ok_of_toOption hfiles⟩

end IsFirstRun

theorem isFirstRun_beside : IsFirstRun "in" "out" "l.db" "l.lock" := by
  refine ⟨rfl, ⟨⟨?_, ?_, ?_⟩, ?_⟩, ?_, ?_⟩ <;> decide +kernel

/-- A run with a ledger beside the sources and the output root, to which the theorem above
applies. -/
theorem execute_again_beside :
    (versionIn "in" "out" "l.db").dryRun = false ∧
      (versionIn "in" "out" "l.db").published?.isSome ∧
      (versionIn "in" "out" "l.db").extraction plainSettings ⟨0, 0⟩ =
        .ok (firstExtraction "in" "out") ∧
      leftJournal.openLedger "l.db" = (openedJournal "l.lock", .ok newLedger) ∧
      (firstExtraction "in" "out").run .acceptAll (openedJournal "l.lock") newLedger =
        ⟨(firstExtracted "in" "out" "l.lock").disk, (firstExtracted "in" "out" "l.lock").opened,
          .ok firstSummary⟩ ∧
      (openedJournal "l.lock").root.HasFileNames ∧ (openedJournal "l.lock").root.HasDistinctNames ∧
      (firstExtracted "in" "out" "l.lock").disk.KeepsApart (firstExtraction "in" "out")
        ([], "l.db") ∧
      isFirstRun_beside.done.FindsLedger "l.db" ([], "l.db") ∧
      (∃ entries, isFirstRun_beside.done.CanRead "in" entries) ∧
      (((versionIn "in" "out" "l.db").under .replace).execute plainSettings ⟨1, 0⟩
        isFirstRun_beside.done).result =
          .ok ((versionIn "in" "out" "l.db").answer
            { firstSummary with outcome? := some .replaced }) := by
  have h := isFirstRun_beside
  have hfinds : isFirstRun_beside.done.FindsLedger "l.db" ([], "l.db") :=
    ⟨Or.inl (by decide +kernel), Or.inl (by decide +kernel)⟩
  have hread := isFirstRun_beside.canRead (by decide +kernel)
  have hagain := execute_again rfl rfl (versionIn_extraction "in" "out" "l.db") h.opens h.run_eq
    (Or.inl rfl) rfl Ledger.empty_sound h.start_hasFileNames h.start_hasDistinctNames h.keepsApart
    hfinds
  exact ⟨rfl, rfl, versionIn_extraction "in" "out" "l.db", h.opens, h.run_eq, h.start_hasFileNames,
    h.start_hasDistinctNames, h.keepsApart, hfinds, hread, (hagain.2.2 hread ⟨1, 0⟩).1⟩

/-- The ledger with the permissions of a file that opening the ledger removes. -/
def modelled : Path := "file:l.db?modeof=l.db-journal"

theorem isFirstRun_modelled :
    IsFirstRun "in" "out" modelled "file:l.db?modeof=l.lock" := by
  refine ⟨rfl, ⟨⟨?_, ?_, ?_⟩, ?_⟩, ?_, ?_⟩ <;> decide +kernel

/-- An output root that is reached through a folder in the sources. -/
def detour : Path := "in/nnnnnnnnnnnnn/../../out"

theorem isFirstRun_detour : IsFirstRun Harvester.longWay detour "l.db" "l.lock" := by
  refine ⟨rfl, ⟨⟨?_, ?_, ?_⟩, ?_⟩, ?_, ?_⟩ <;> decide +kernel

/-- Both conditions are needed. Opening the ledger the first time removes the journal that is left
beside it, which may be what the address of the ledger needs. And the first run may make a folder in
the sources, under a path that is too long to read it. -/
theorem not_again_without_conditions :
    (¬∀ (request : ExtractRequest) (config : Config) (now : Instant) (disk start written : Disk)
        (extraction : Extraction) (opened next : OpenLedger) (summary : ExtractionSummary)
        (place : Location × Text), request.dryRun = false → request.published?.isSome →
      request.extraction config now = .ok extraction →
      disk.openLedger (request.ledgerPath config) = (start, .ok opened) →
      extraction.run (request.oracle config) start opened = ⟨written, next, .ok summary⟩ →
      summary.outcome? = some .written ∨ summary.outcome? = some .replaced →
      opened.place? = some place → opened.ledger.IsSound →
      start.root.HasFileNames → start.root.HasDistinctNames →
      written.KeepsApart extraction place →
      (∃ entries, (request.execute config now disk).disk.CanRead extraction.sources entries) →
      ∀ later, ((request.under .reject).execute config later
        (request.execute config now disk).disk).result =
          .ok (request.answer Extraction.skipped)) ∧
    ¬∀ (request : ExtractRequest) (config : Config) (now : Instant) (disk start written : Disk)
        (extraction : Extraction) (opened next : OpenLedger) (summary : ExtractionSummary)
        (place : Location × Text), request.dryRun = false → request.published?.isSome →
      request.extraction config now = .ok extraction →
      disk.openLedger (request.ledgerPath config) = (start, .ok opened) →
      extraction.run (request.oracle config) start opened = ⟨written, next, .ok summary⟩ →
      summary.outcome? = some .written ∨ summary.outcome? = some .replaced →
      opened.place? = some place → opened.ledger.IsSound →
      start.root.HasFileNames → start.root.HasDistinctNames →
      written.KeepsApart extraction place →
      (request.execute config now disk).disk.FindsLedger (request.ledgerPath config) place →
      ∀ later, ((request.under .replace).execute config later
        (request.execute config now disk).disk).result =
          .ok (request.answer { summary with outcome? := some .replaced }) := by
  constructor
  · intro h
    have hrun := isFirstRun_modelled
    have hread := isFirstRun_modelled.canRead (by decide +kernel)
    have hskips := h (versionIn "in" "out" modelled) plainSettings ⟨0, 0⟩ leftJournal _ _ _ _ _ _
      ([], "l.db") rfl rfl (versionIn_extraction "in" "out" modelled) hrun.opens hrun.run_eq
      (Or.inl rfl) rfl Ledger.empty_sound hrun.start_hasFileNames hrun.start_hasDistinctNames
      hrun.keepsApart hread ⟨0, 0⟩
    have hfails : (((versionIn "in" "out" modelled).under .reject).execute plainSettings ⟨0, 0⟩
        isFirstRun_modelled.done).result.toOption = none := by decide +kernel
    rw [hskips] at hfails
    cases hfails
  · intro h
    have hrun := isFirstRun_detour
    have hlinks : isFirstRun_detour.done.root.HasNoLinks := by
      obtain ⟨scope, hchanges⟩ := hrun.done_changes
      exact hchanges.hasNoLinks (openedJournal_hasNoLinks _)
    have hfinds : isFirstRun_detour.done.FindsLedger "l.db" ([], "l.db") :=
      ⟨Or.inl ⟨by decide, Disk.not_isLink hlinks _⟩, Or.inl ⟨by decide, Disk.not_isLink hlinks _⟩⟩
    have hreplaces := h (versionIn Harvester.longWay detour "l.db") plainSettings ⟨0, 0⟩ leftJournal
      _ _ _ _ _ _ ([], "l.db") rfl rfl (versionIn_extraction _ _ _) hrun.opens hrun.run_eq
      (Or.inl rfl) rfl Ledger.empty_sound hrun.start_hasFileNames hrun.start_hasDistinctNames
      hrun.keepsApart hfinds ⟨0, 0⟩
    have hfails : (((versionIn Harvester.longWay detour "l.db").under .replace).execute plainSettings
        ⟨0, 0⟩ isFirstRun_detour.done).result.toOption = none := by decide +kernel
    rw [hreplaces] at hfails
    cases hfails

end ExtractRequest

end SampleHarvest
