import SampleHarvest.Extraction
import SampleHarvest.Proofs.Harvest.Artifacts
import SampleHarvest.Proofs.Harvest.Publication
import SampleHarvest.Proofs.Ledger.Answers

/-!
# Ledger and output root over many runs

A run writes its artifacts before it records its release. Over runs that share a ledger and an
output root, every file that is recorded for a release therefore holds what the last run that
recorded the release wrote into it, or what a later run wrote that then failed.
-/

namespace SampleHarvest

/-- What is known of a run after it ended. -/
structure RunRecord where
  key : ReleaseKey
  written : List Artifact
  result : Except ExtractionFailure ExtractionSummary

namespace RunRecord

def Records (run : RunRecord) (key : ReleaseKey) : Prop :=
  run.key = key ∧ ∃ summary, run.result = .ok summary ∧
    (summary.outcome? = some .written ∨ summary.outcome? = some .replaced)

def Failed (run : RunRecord) : Prop := ∃ failure, run.result = .error failure

end RunRecord

namespace Extraction

variable {extraction : Extraction} {oracle : Oracle} {disk : Disk} {opened : OpenLedger}

def key (extraction : Extraction) : ReleaseKey := ⟨extraction.name, extraction.language⟩

/-- A release that is recorded already and is to stay is skipped. -/
abbrev Skips (extraction : Extraction) (opened : OpenLedger) : Prop :=
  extraction.policy = .reject ∧ opened.ledger.isRecorded extraction.name extraction.language

/-- What is done if a release is skipped. -/
def skipped : ExtractionSummary where
  outcome? := some .duplicate
  files := []
  report? := none

/-- What is done if a release is recorded with the artifacts of a harvest. -/
def recorded (harvest : Harvest) (outcome : Outcome) : ExtractionSummary where
  outcome? := some outcome
  files := harvest.artifacts.map Artifact.path
  report? := some { harvest.report with written := harvest.artifacts.length }

/-- The artifacts that a run writes before it ends or a write fails. -/
def written (extraction : Extraction) (oracle : Oracle) (disk : Disk) (opened : OpenLedger) :
    List Artifact :=
  if extraction.Skips opened then []
  else
    match extraction.harvest oracle disk with
    | .error _ => []
    | .ok harvest => disk.published extraction.output harvest.artifacts

/-- What is known of a run on a disk and an open ledger. -/
def record (extraction : Extraction) (oracle : Oracle) (disk : Disk) (opened : OpenLedger) :
    RunRecord where
  key := extraction.key
  written := extraction.written oracle disk opened
  result := (extraction.run oracle disk opened).result

/-! ### One run -/

theorem harvester_harvest {harvest : Harvest} (h : extraction.harvest oracle disk = .ok harvest) :
    (extraction.harvester oracle).harvest disk extraction.sources = .ok harvest := by
  rw [Extraction.harvest] at h
  cases hharvest : (extraction.harvester oracle).harvest disk extraction.sources with
  | error failure =>
      rw [hharvest] at h
      cases h
  | ok found =>
      rw [hharvest] at h
      cases h
      rfl

theorem harvest_artifacts {harvest : Harvest} (h : extraction.harvest oracle disk = .ok harvest) :
    (∀ artifact ∈ harvest.artifacts, artifact.target.isContained) ∧
      (harvest.artifacts.map Artifact.path).Nodup :=
  Harvester.harvest_artifacts (harvester_harvest h)

/-- All ways in which a run can end. -/
theorem run_cases (extraction : Extraction) (oracle : Oracle) (disk : Disk) (opened : OpenLedger) :
    (extraction.Skips opened ∧
      extraction.run oracle disk opened = ⟨disk, opened, .ok skipped⟩) ∨
    (∃ failure made, extraction.run oracle disk opened = ⟨made, opened, .error failure⟩) ∨
    ¬extraction.Skips opened ∧ ∃ harvest made outcome next,
      extraction.harvest oracle disk = .ok harvest ∧
      disk.publishAll extraction.output harvest.artifacts =
        (made, .ok (harvest.artifacts.map Artifact.path)) ∧
      opened.record (extraction.recording (harvest.artifacts.map Artifact.path))
        extraction.policy = .ok (outcome, next) ∧
      extraction.run oracle disk opened = ⟨made, next, .ok (recorded harvest outcome)⟩ := by
  rw [run]
  by_cases hskips : extraction.Skips opened
  · rw [if_pos hskips]
    exact Or.inl ⟨hskips, rfl⟩
  rw [if_neg hskips]
  refine Or.inr ?_
  cases hharvest : extraction.harvest oracle disk with
  | error failure => exact Or.inl ⟨failure, disk, rfl⟩
  | ok harvest =>
      simp only [publish]
      cases hmade : disk.publishAll extraction.output harvest.artifacts with
      | mk made result =>
          cases result with
          | error fault => exact Or.inl ⟨_, made, rfl⟩
          | ok paths =>
              obtain ⟨rfl, -⟩ := Disk.publishAll_ok (by rw [hmade])
              dsimp only
              cases hrecord : opened.record (extraction.recording
                  (harvest.artifacts.map Artifact.path)) extraction.policy with
              | error failure => exact Or.inl ⟨_, made, rfl⟩
              | ok result =>
                  obtain ⟨outcome, next⟩ := result
                  refine Or.inr ⟨hskips, harvest, made, outcome, next, rfl, hmade, hrecord, ?_⟩
                  rw [recorded, List.length_map]

/-- All that a run does to the disk: nothing, or it publishes its harvest. -/
theorem run_disk (extraction : Extraction) (oracle : Oracle) (disk : Disk) (opened : OpenLedger) :
    ((extraction.run oracle disk opened).disk = disk ∧
      extraction.written oracle disk opened = []) ∨
    ∃ harvest, extraction.harvest oracle disk = .ok harvest ∧
      (extraction.run oracle disk opened).disk =
        (disk.publishAll extraction.output harvest.artifacts).1 ∧
      extraction.written oracle disk opened =
        disk.published extraction.output harvest.artifacts := by
  rw [run, written]
  by_cases hskips : extraction.Skips opened
  · rw [if_pos hskips, if_pos hskips]
    exact Or.inl ⟨rfl, rfl⟩
  rw [if_neg hskips, if_neg hskips]
  cases hharvest : extraction.harvest oracle disk with
  | error failure => exact Or.inl ⟨rfl, rfl⟩
  | ok harvest =>
      refine Or.inr ⟨harvest, rfl, ?_, rfl⟩
      simp only [publish]
      generalize disk.publishAll extraction.output harvest.artifacts = made
      obtain ⟨made, result⟩ := made
      cases result with
      | error fault => rfl
      | ok paths =>
          dsimp only
          cases opened.record (extraction.recording paths) extraction.policy <;> rfl

/-- All that a run does to the ledger: nothing, if it skips the release or fails, or it records the
release with the paths of all artifacts. -/
theorem run_ledger (extraction : Extraction) (oracle : Oracle) (disk : Disk) (opened : OpenLedger) :
    (∃ summary, (extraction.run oracle disk opened).opened = opened ∧
      extraction.written oracle disk opened = [] ∧
      (extraction.run oracle disk opened).result = .ok summary ∧
      summary.outcome? = some .duplicate) ∨
    ((extraction.run oracle disk opened).opened = opened ∧
      ∃ failure, (extraction.run oracle disk opened).result = .error failure) ∨
    ∃ summary outcome next, ¬extraction.Skips opened ∧
      opened.record (extraction.recording
        ((extraction.written oracle disk opened).map Artifact.path)) extraction.policy =
          .ok (outcome, next) ∧
      (extraction.run oracle disk opened).opened = next ∧
      (extraction.run oracle disk opened).result = .ok summary ∧
      summary.outcome? = some outcome := by
  rcases extraction.run_cases oracle disk opened with
    ⟨hskips, hrun⟩ | ⟨failure, made, hrun⟩ |
    ⟨hskips, harvest, made, outcome, next, hharvest, hpublish, hrecord, hrun⟩
  · rw [hrun, written, if_pos hskips]
    exact Or.inl ⟨skipped, rfl, rfl, rfl, rfl⟩
  · rw [hrun]
    exact Or.inr (Or.inl ⟨rfl, failure, rfl⟩)
  · have hall : extraction.written oracle disk opened = harvest.artifacts := by
      rw [written, if_neg hskips, hharvest]
      exact (Disk.publishAll_ok (by rw [hpublish])).2
    rw [hrun, hall]
    exact Or.inr (Or.inr ⟨recorded harvest outcome, outcome, next, hskips, hrecord, rfl, rfl, rfl⟩)

theorem published_sublist (disk : Disk) (root : Path) (artifacts : List Artifact) :
    (disk.published root artifacts).Sublist artifacts := by
  induction artifacts generalizing disk with
  | nil => exact List.Sublist.refl _
  | cons artifact artifacts ih =>
      rw [Disk.published]
      split
      · exact (ih _).cons_cons artifact
      · exact List.nil_sublist _

/-- The artifacts that a run writes are contained, and no two of them have one path. -/
theorem written_artifacts (extraction : Extraction) (oracle : Oracle) (disk : Disk)
    (opened : OpenLedger) :
    (∀ artifact ∈ extraction.written oracle disk opened, artifact.target.isContained) ∧
      ((extraction.written oracle disk opened).map Artifact.path).Nodup := by
  rcases run_disk extraction oracle disk opened with ⟨-, hnone⟩ | ⟨harvest, hharvest, -, hall⟩
  · rw [hnone]
    exact ⟨nofun, List.nodup_nil⟩
  · obtain ⟨hcontained, hpaths⟩ := harvest_artifacts hharvest
    have hsublist := published_sublist disk extraction.output harvest.artifacts
    rw [hall]
    exact ⟨fun artifact hmem => hcontained artifact (hsublist.subset hmem),
      hpaths.sublist (hsublist.map _)⟩

end Extraction

namespace OpenLedger

/-- A recording that goes through binds the key of the release to what was asked for, and no path of
it belonged to another key. -/
theorem record_ok {opened next : OpenLedger} (h : opened.ledger.IsSound) {recording : Recording}
    {policy : Policy} {outcome : Outcome}
    (hskips : ¬(policy = .reject ∧ opened.ledger.isRecorded recording.name recording.language))
    (hrecord : opened.record recording policy = .ok (outcome, next)) :
    (outcome = .written ∨ outcome = .replaced) ∧ next.ledger.IsSound ∧
      next.ledger.catalog = opened.ledger.catalog.bind recording.key recording.entry ∧
      ∀ path ∈ recording.files, opened.ledger.catalog.IsFreeFor recording.key path := by
  rw [OpenLedger.record] at hrecord
  split_ifs at hrecord
  rw [Ledger.record_eq, if_neg fun hreject => hskips hreject.symm] at hrecord
  obtain ⟨clash, -, herror⟩ | ⟨hfree, ledger, hsound, hcatalog, hok⟩ :=
    h.insertFresh_remove recording
      (if opened.ledger.isRecorded recording.name recording.language then .replaced else .written)
  · rw [herror] at hrecord
    cases hrecord
  · rw [hok] at hrecord
    cases hrecord
    refine ⟨?_, hsound, hcatalog, hfree⟩
    split_ifs <;> simp

end OpenLedger

/-! ### Runs one after the other -/

/-- Runs that share a ledger and an output root, which begin empty and are changed by nothing else;
with the runs so far in their order, the disk and the ledger. -/
inductive History (root : Path) : List RunRecord → Disk → Ledger → Prop
  | start {disk : Disk} (hfresh : disk.IsFresh root) : History root [] disk .empty
  | elsewhere {log : List RunRecord} {disk disk' : Disk} {ledger : Ledger}
      (hhistory : History root log disk ledger) (hleaves : disk.LeavesOutput disk' root) :
      History root log disk' ledger
  /-- Steps spare the documents, such as those of opening and storing a ledger, whose file may be in
  the output root. -/
  | beside {log : List RunRecord} {disk disk' : Disk} {ledger : Ledger} {scope : Disk.Scope}
      (hhistory : History root log disk ledger) (hchanges : Disk.Changes scope disk disk')
      (hspares : ∀ location, disk.HasDocumentAt root location →
        ¬scope.writes location ∧ ¬scope.drops location) :
      History root log disk' ledger
  | run {log : List RunRecord} {disk : Disk} {opened : OpenLedger} (extraction : Extraction)
      (oracle : Oracle) (hhistory : History root log disk opened.ledger)
      (houtput : extraction.output = root) :
      History root (log ++ [extraction.record oracle disk opened])
        (extraction.run oracle disk opened).disk
        (extraction.run oracle disk opened).opened.ledger

namespace History

variable {root : Path} {log : List RunRecord} {disk : Disk} {ledger : Ledger}

/-- All artifacts that were written, in their order. -/
def allWritten (log : List RunRecord) : List Artifact := log.flatMap RunRecord.written

theorem allWritten_append (log log' : List RunRecord) :
    allWritten (log ++ log') = allWritten log ++ allWritten log' :=
  List.flatMap_append

theorem runs (h : History root log disk ledger) : ∀ run ∈ log,
    (∀ artifact ∈ run.written, artifact.target.isContained) ∧
      (run.written.map Artifact.path).Nodup := by
  induction h with
  | start => nofun
  | elsewhere _ _ ih | beside _ _ _ ih => exact ih
  | run extraction oracle _ _ ih =>
      intro run hrun
      rcases List.mem_append.mp hrun with hrun | hrun
      · exact ih run hrun
      · rw [List.mem_singleton.mp hrun]
        exact extraction.written_artifacts oracle _ _

theorem hasWritten (h : History root log disk ledger) :
    disk.HasWritten root (allWritten log) := by
  induction h with
  | start hfresh =>
      obtain ⟨base, back, habove, -⟩ := hfresh
      exact Or.inl ⟨rfl, base, back, habove⟩
  | elsewhere _ hleaves ih => exact ih.leavesOutput hleaves
  | beside _ hchanges hspares ih => exact ih.changes hchanges hspares
  | @run log disk opened extraction oracle _ houtput ih =>
      rw [allWritten_append, allWritten, allWritten, List.flatMap_singleton, Extraction.record]
      rcases extraction.run_disk oracle disk opened with
        ⟨hdisk, hnone⟩ | ⟨harvest, hharvest, hdisk, hall⟩
      · rw [hdisk, hnone, List.append_nil]
        exact ih
      · rw [hdisk, hall, houtput]
        exact ih.publishAll (Extraction.harvest_artifacts hharvest).1

theorem sound (h : History root log disk ledger) : ledger.IsSound := by
  induction h with
  | start => exact Ledger.empty_sound
  | elsewhere _ _ ih | beside _ _ _ ih => exact ih
  | @run log disk opened extraction oracle _ _ ih =>
      rcases extraction.run_ledger oracle disk opened with
        ⟨_, hopened, -⟩ | ⟨hopened, -⟩ | ⟨_, outcome, next, hskips, hrecord, hopened, -⟩
      · rw [hopened]
        exact ih
      · rw [hopened]
        exact ih
      · rw [hopened]
        exact (OpenLedger.record_ok ih (by exact hskips) hrecord).2.1

/-- What the log tells of a path that is recorded for a release: the last run that recorded the
release wrote the path, and every later run that wrote it failed. -/
def IsKept (log : List RunRecord) (key : ReleaseKey) (path : Path) : Prop :=
  ∃ before run after, log = before ++ run :: after ∧ run.Records key ∧
    (∀ later ∈ after, ¬later.Records key) ∧ (∃ artifact ∈ run.written, artifact.path = path) ∧
    ∀ later ∈ after, (∃ other ∈ later.written, other.path = path) → later.Failed

/-- A later run does no harm if it does not record the release and fails if it writes the path. -/
theorem IsKept.concat {key : ReleaseKey} {path : Path} (h : IsKept log key path) {last : RunRecord}
    (hkey : ¬last.Records key)
    (hlast : (∃ other ∈ last.written, other.path = path) → last.Failed) :
    IsKept (log ++ [last]) key path := by
  obtain ⟨before, run, after, rfl, hrecords, hlater, hpath, hfailed⟩ := h
  refine ⟨before, run, after ++ [last], by rw [List.append_assoc]; rfl, hrecords, ?_, hpath, ?_⟩
  · intro later hmem
    rcases List.mem_append.mp hmem with hmem | hmem
    · exact hlater later hmem
    · rw [List.mem_singleton.mp hmem]
      exact hkey
  · intro later hmem
    rcases List.mem_append.mp hmem with hmem | hmem
    · exact hfailed later hmem
    · rw [List.mem_singleton.mp hmem]
      exact hlast

theorem kept (h : History root log disk ledger) {key : ReleaseKey} {path : Path}
    (howns : ledger.catalog.Owns key path) : IsKept log key path := by
  induction h generalizing key path with
  | start =>
      obtain ⟨entry, hentry, -⟩ := howns
      cases hentry
  | elsewhere _ _ ih | beside _ _ _ ih => exact ih howns
  | @run log disk opened extraction oracle hhistory _ ih =>
      rcases extraction.run_ledger oracle disk opened with
        ⟨summary, hopened, hnone, hresult, houtcome⟩ | ⟨hopened, failure, hresult⟩ |
        ⟨summary, outcome, next, hskips, hrecord, hopened, hresult, houtcome⟩
      · rw [hopened] at howns
        refine (ih howns).concat ?_ ?_
        · rintro ⟨-, other, hother, hrecorded⟩
          obtain rfl := Except.ok.inj (hresult.symm.trans hother)
          rw [houtcome] at hrecorded
          simp at hrecorded
        · rintro ⟨other, hother, -⟩
          rw [Extraction.record, hnone] at hother
          cases hother
      · rw [hopened] at howns
        refine (ih howns).concat ?_ fun _ => ⟨failure, hresult⟩
        rintro ⟨-, other, hother, -⟩
        cases hresult.symm.trans hother
      · obtain ⟨hwritten, -, hcatalog, hfree⟩ :=
          OpenLedger.record_ok hhistory.sound (by exact hskips) hrecord
        rw [hopened, hcatalog, Catalog.owns_bind] at howns
        split_ifs at howns with hkey
        · -- The run is the one that recorded the release last.
          obtain ⟨artifact, hartifact, rfl⟩ := List.mem_map.mp (List.mem_toFinset.mp howns)
          refine ⟨log, _, [], rfl, ⟨hkey.symm, summary, hresult, ?_⟩, nofun,
            ⟨artifact, hartifact, rfl⟩, nofun⟩
          rw [houtcome]
          exact hwritten.imp (congrArg some) (congrArg some)
        · refine (ih howns).concat (fun hrecords => hkey hrecords.1.symm) ?_
          rintro ⟨other, hother, rfl⟩
          exact absurd (hfree _ (List.mem_map_of_mem hother) key howns) hkey

def IsLastFor (written : List Artifact) (path : Path) (last : Artifact) : Prop :=
  Path.components last.path = Path.components path ∧ ∃ front back,
    written = front ++ last :: back ∧
      ∀ other ∈ back, Path.components other.path ≠ Path.components path

theorem isLastFor_of_lastNamed? {written : List Artifact} {artifact last : Artifact}
    (hcontained : ∀ other ∈ written, other.target.isContained)
    (hartifact : artifact.target.isContained)
    (h : lastNamed? written artifact.names = some last) : IsLastFor written artifact.path last := by
  obtain ⟨hnames, front, back, rfl, hback⟩ := lastNamed?_eq_some h
  have hlast := hcontained last (List.mem_append_right front List.mem_cons_self)
  refine ⟨(Artifact.names_eq_iff hlast hartifact).mp hnames, front, back, rfl, ?_⟩
  intro other hother hsame
  have hmem := hcontained other (List.mem_append_right front (List.mem_cons_of_mem _ hother))
  exact hback other hother ((Artifact.names_eq_iff hmem hartifact).mpr hsame)

/-- **Recorded files.** A path that is recorded for a release was written by the last run that
recorded the release, and its file holds what was written there last since then. That is what this
run wrote for the path, or what a later run wrote. A later run that wrote the path failed: runs
write before they record, so a run that clashes has changed the file already. -/
theorem recorded_file_content (h : History root log disk ledger) {key : ReleaseKey} {path : Path}
    (howns : ledger.catalog.Owns key path) :
    ∃ before run after artifact last, log = before ++ run :: after ∧ run.Records key ∧
      (∀ later ∈ after, ¬later.Records key) ∧ artifact ∈ run.written ∧ artifact.path = path ∧
      (∀ later ∈ after, (∃ other ∈ later.written, other.path = path) → later.Failed) ∧
      IsLastFor (allWritten (run :: after)) path last ∧
      disk.readContent (Path.join root path) = .ok (.bytes (Utf8.encode last.content)) ∧
      (last = artifact ∨ last ∈ run.written ∧ last.path ≠ path ∨
        ∃ later ∈ after, last ∈ later.written ∧ (last.path = path → later.Failed)) := by
  obtain ⟨before, run, after, rfl, hrecords, hlater, ⟨artifact, hartifact, rfl⟩, hfailed⟩ :=
    h.kept howns
  have hruns : ∀ other ∈ run :: after,
      (∀ artifact ∈ other.written, artifact.target.isContained) ∧
        (other.written.map Artifact.path).Nodup := fun other hother =>
    h.runs other (List.mem_append_right before hother)
  have hrun := hruns run List.mem_cons_self
  have hmem : artifact ∈ allWritten (run :: after) :=
    List.mem_flatMap.mpr ⟨run, List.mem_cons_self, hartifact⟩
  have hwritten := h.hasWritten
  rw [allWritten_append] at hwritten
  obtain ⟨last, hlast, hcontent⟩ := hwritten.readContent (List.mem_append_right _ hmem)
  -- What was written before the recording run is hidden by what that run wrote itself.
  obtain ⟨found, hfound⟩ := Option.isSome_iff_exists.mp (lastNamed?_isSome hmem)
  rw [lastNamed?_append, hfound, Option.some_or] at hlast
  obtain rfl := Option.some.inj hlast
  have hcontained : ∀ other ∈ allWritten (run :: after), other.target.isContained := by
    intro other hother
    obtain ⟨origin, horigin, hfrom⟩ := List.mem_flatMap.mp hother
    exact (hruns origin horigin).1 other hfrom
  obtain ⟨-, front, back, hwhere, -⟩ := lastNamed?_eq_some hfound
  have hfoundmem : found ∈ allWritten (run :: after) := by
    rw [hwhere]
    exact List.mem_append_right front List.mem_cons_self
  obtain ⟨origin, horigin, hfrom⟩ := List.mem_flatMap.mp hfoundmem
  refine ⟨before, run, after, artifact, found, rfl, hrecords, hlater, hartifact, rfl, hfailed,
    isLastFor_of_lastNamed? hcontained (hrun.1 artifact hartifact) hfound, hcontent, ?_⟩
  rcases List.mem_cons.mp horigin with rfl | horigin
  · by_cases hpath : found.path = artifact.path
    · exact Or.inl (List.inj_on_of_nodup_map hrun.2 hfrom hartifact hpath)
    · exact Or.inr (Or.inl ⟨hfrom, hpath⟩)
  · exact Or.inr (Or.inr ⟨origin, horigin, hfrom, fun hpath =>
      hfailed origin horigin ⟨found, hfrom, hpath⟩⟩)

/-! ### A clash after the writing -/

/-- A disk with one source file and an empty output root. -/
def oneSource : Disk where
  root := .folder
    [("in", .folder [("b_test.go", .file (.bytes (Utf8.encode
        "// x-ms-original-file: a/examples/B.json\nfunc B() \x7b\n\x7d\n")))]),
      ("out", .folder [])]
  workingFolder := []

/-- The extraction of a version of a package from that disk. -/
def versionRun (version : Text) : Extraction where
  dialect := .go
  release := { tag := version, package := "p", version, sdkName := "p" }
  name := version
  policy := .reject
  published := { seconds := 0, nanos := 0 }
  sources := "in"
  output := "out"
  template? := none

def firstRun : Extracted := (versionRun "1").run .acceptAll oneSource { ledger := .empty }

/-- The second version is extracted after it, whose only file is the same. -/
def secondRun : Extracted := (versionRun "2").run .acceptAll firstRun.disk firstRun.opened

def bothRuns : List RunRecord :=
  [(versionRun "1").record .acceptAll oneSource { ledger := .empty },
    (versionRun "2").record .acceptAll firstRun.disk firstRun.opened]

theorem oneSource_fresh : oneSource.IsFresh "out" := by
  have hget : oneSource.root.get? ["out"] = some (.folder []) := rfl
  have hlook : oneSource.root.look ["out"] = .folder := Node.look_eq_folder_iff.mpr ⟨[], hget⟩
  have hbelow : ∀ below, oneSource.root.look ((["out"] : Location) ++ below) = .folder ∨
      oneSource.root.look ((["out"] : Location) ++ below) = .nothing := by
    intro below
    rw [Node.look_append hget]
    by_cases h : below = []
    · rw [h]
      exact Or.inl rfl
    · exact Or.inr (Node.look_folder_below below h)
  refine ⟨["out"], [], ⟨⟨["out"], rfl, .down ⟨by decide, by decide, by decide⟩ hlook (.done hlook)⟩,
    List.not_mem_nil, fun below target => ?_⟩, fun below content => ?_⟩
  all_goals
    rw [Disk.namesOf, List.filter_nil, List.take_nil, List.append_nil]
    rcases hbelow below with h | h
    all_goals
      rw [h]
      intro heq
      cases heq

theorem bothRuns_history : History "out" bothRuns secondRun.disk secondRun.opened.ledger := by
  have hnone : History "out" [] oneSource (OpenLedger.ledger { ledger := .empty }) :=
    .start oneSource_fresh
  have hfirst := hnone.run (versionRun "1") .acceptAll rfl
  exact hfirst.run (versionRun "2") .acceptAll rfl

/-- The first run writes the only file and records it. The second one changes the file and leaves
its owner. -/
theorem bothRuns_effect :
    ((versionRun "1").written .acceptAll oneSource { ledger := .empty }).map
        (fun artifact => (artifact.path, some (Content.bytes (Utf8.encode artifact.content)))) =
      [(("a/examples-go/B.md" : Path),
        (firstRun.disk.readContent "out/a/examples-go/B.md").toOption)] ∧
    firstRun.result.toOption.bind ExtractionSummary.outcome? = some .written ∧
    (secondRun.disk.readContent "out/a/examples-go/B.md").toOption ≠
      (firstRun.disk.readContent "out/a/examples-go/B.md").toOption ∧
    (secondRun.opened.ledger.owner? "a/examples-go/B.md").map ReleaseRow.key =
      some ⟨"1", "go"⟩ := by
  decide +kernel

theorem bothRuns_owner : secondRun.opened.ledger.catalog.Owns ⟨"1", "go"⟩ "a/examples-go/B.md" := by
  obtain ⟨-, -, -, howner⟩ := bothRuns_effect
  exact bothRuns_history.sound.owns_iff.mpr (Option.map_eq_some_iff.mp howner)

/-- A history with a recorded file, to which the theorem above applies. -/
theorem recorded_file_content_bothRuns :
    History "out" bothRuns secondRun.disk secondRun.opened.ledger ∧
      secondRun.opened.ledger.catalog.Owns ⟨"1", "go"⟩ "a/examples-go/B.md" ∧
      ∃ last : Artifact, Path.components last.path = Path.components "a/examples-go/B.md" ∧
        secondRun.disk.readContent "out/a/examples-go/B.md" =
          .ok (.bytes (Utf8.encode last.content)) := by
  obtain ⟨_, _, _, _, last, -, -, -, -, -, -, ⟨hpath, -⟩, hcontent, -⟩ :=
    recorded_file_content bothRuns_history bothRuns_owner
  exact ⟨bothRuns_history, bothRuns_owner, last, hpath, hcontent⟩

/-- The run that clashes has written over the file before, so a recorded file need not hold what the
last run that recorded its release wrote there. -/
theorem clash_overwrites_recorded_file :
    ¬∀ root log disk ledger, History root log disk ledger →
      ∀ key path, ledger.catalog.Owns key path →
      ∀ before run after artifact, log = before ++ run :: after → run.Records key →
        (∀ later ∈ after, ¬later.Records key) → artifact ∈ run.written → artifact.path = path →
        disk.readContent (Path.join root path) = .ok (.bytes (Utf8.encode artifact.content)) := by
  intro h
  obtain ⟨hwritten, hrecorded, hchanged, -⟩ := bothRuns_effect
  obtain ⟨artifact, hmem, hartifact⟩ := List.mem_map.mp (hwritten ▸ List.mem_singleton_self _)
  obtain ⟨hpath, hcontent⟩ := Prod.mk.inj hartifact
  obtain ⟨summary, hsummary, houtcome⟩ := Option.bind_eq_some_iff.mp hrecorded
  have hresult : firstRun.result = .ok summary := by
    cases hcases : firstRun.result with
    | error failure =>
        rw [hcases] at hsummary
        cases hsummary
    | ok found =>
        rw [hcases] at hsummary
        cases hsummary
        rfl
  have hread := h "out" bothRuns secondRun.disk secondRun.opened.ledger bothRuns_history
    ⟨"1", "go"⟩ "a/examples-go/B.md" bothRuns_owner [] _ _ artifact rfl
    ⟨rfl, summary, hresult, Or.inl houtcome⟩ (fun later hlater hrecords => by
      obtain rfl := List.mem_singleton.mp hlater
      exact absurd hrecords.1 (by decide)) hmem hpath
  refine hchanged ?_
  rw [← hcontent]
  exact congrArg Except.toOption hread

end History

end SampleHarvest
