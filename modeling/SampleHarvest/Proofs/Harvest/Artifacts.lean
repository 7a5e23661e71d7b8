import Mathlib.Data.List.Nodup
import SampleHarvest.Harvest.Basic
import SampleHarvest.Proofs.Harvest.Discovery
import SampleHarvest.Proofs.Sample.Examples

/-!
# The artifacts of a harvest

A source file gives one artifact for every valid unit that is contained and accepted. It fails if it
cannot be read, or if the oracle fails over one of its contained units. Of several artifacts for one
document the first one is kept, and every document keeps one.
-/

namespace SampleHarvest

namespace Harvester

variable {harvester : Harvester} {disk : Disk} {source : Path} {shown : List Example}

/-- The oracle accepts an example whose target is contained. -/
def Accepts (harvester : Harvester) (shown : Example) : Prop :=
  shown.target.isContained ∧ harvester.oracle (harvester.candidate shown) = .ok .accept

/-- The oracle fails over an example whose target is contained. -/
def FailsOn (harvester : Harvester) (shown : Example) : Prop :=
  shown.target.isContained ∧
    ∃ failure, harvester.oracle (harvester.candidate shown) = .error failure

theorem judge_cons_of_not_contained {one : Example} (h : ¬one.target.isContained) :
    harvester.judge source (one :: shown) =
      (harvester.judge source shown).map fun outcome =>
        { outcome with skipped := outcome.skipped + 1 } := by
  rw [judge, if_neg h]
  cases harvester.judge source shown <;> rfl

theorem judge_cons_of_contained {one : Example} (h : one.target.isContained) :
    harvester.judge source (one :: shown) =
      match harvester.oracle (harvester.candidate one), harvester.judge source shown with
      | .error failure, _ => .error failure
      | .ok _, .error failure => .error failure
      | .ok .accept, .ok outcome =>
        .ok { outcome with
          offered := harvester.candidate one :: outcome.offered
          artifacts := harvester.artifact source one :: outcome.artifacts }
      | .ok (.reject _), .ok outcome =>
        .ok { outcome with
          offered := harvester.candidate one :: outcome.offered
          rejected := outcome.rejected + 1 } := by
  rw [judge, if_pos h]
  cases harvester.oracle (harvester.candidate one) with
  | error failure => rfl
  | ok verdict =>
      cases harvester.judge source shown with
      | error failure => rfl
      | ok outcome => cases verdict <;> rfl

/-- The examples of a file are judged without failure unless the oracle fails over one of them. -/
theorem judge_error_iff :
    (∃ failure, harvester.judge source shown = .error failure) ↔
      ∃ one ∈ shown, harvester.FailsOn one := by
  induction shown with
  | nil => simp [judge]
  | cons one shown ih =>
      rw [List.exists_mem_cons_iff, ← ih]
      by_cases hcontained : one.target.isContained
      · rw [judge_cons_of_contained hcontained]
        simp only [FailsOn, hcontained, true_and]
        cases harvester.oracle (harvester.candidate one) with
        | error failure => simp
        | ok verdict =>
            cases harvester.judge source shown with
            | error failure => simp
            | ok outcome => cases verdict <;> simp
      · rw [judge_cons_of_not_contained hcontained]
        simp only [FailsOn, hcontained, Bool.false_eq_true, false_and, false_or]
        cases harvester.judge source shown <;> simp [Except.map]

/-- The artifacts of a file are its examples that are contained and accepted. -/
theorem mem_judge {outcome : FileHarvest} (h : harvester.judge source shown = .ok outcome)
    {artifact : Artifact} :
    artifact ∈ outcome.artifacts ↔
      ∃ one ∈ shown, harvester.Accepts one ∧ artifact = harvester.artifact source one := by
  induction shown generalizing outcome with
  | nil =>
      cases h
      simp
  | cons one shown ih =>
      rw [List.exists_mem_cons_iff]
      by_cases hcontained : one.target.isContained
      · rw [judge_cons_of_contained hcontained] at h
        simp only [Accepts, hcontained, true_and]
        cases horacle : harvester.oracle (harvester.candidate one) with
        | error failure =>
            rw [horacle] at h
            cases h
        | ok verdict =>
            cases hjudge : harvester.judge source shown with
            | error failure =>
                rw [horacle, hjudge] at h
                cases h
            | ok rest =>
                rw [horacle, hjudge] at h
                cases verdict with
                | accept =>
                    cases h
                    rw [List.mem_cons, ih hjudge]
                    simp [Accepts]
                | reject diagnostics =>
                    cases h
                    rw [ih hjudge]
                    simp [Accepts]
      · rw [judge_cons_of_not_contained hcontained] at h
        simp only [Accepts, hcontained, Bool.false_eq_true, false_and, false_or]
        cases hjudge : harvester.judge source shown with
        | error failure =>
            rw [hjudge] at h
            cases h
        | ok rest =>
            rw [hjudge] at h
            cases h
            have hrest := ih hjudge
            exact hrest

/-! ### One source file -/

/-- A source file has this example: it is made of a valid unit of the file. -/
def Shows (harvester : Harvester) (disk : Disk) (source : Path) (shown : Example) : Prop :=
  ∃ text, disk.readText source = .ok text ∧
    shown ∈ (Sample.ofLines harvester.dialect.rules (splitLines text)).examples
      harvester.dialect.rules ((Path.stem? source).getD [])

/-- A source file cannot be read, and not because it holds no text. -/
def IsUnreadable (disk : Disk) (source : Path) : Prop :=
  ∃ fault, disk.readText source = .error fault ∧ fault ≠ .notText

/-- A file with an example has a marker, so the marker alone decides. -/
theorem isAggregated_eq (rules : DialectRules) (lines : List Line) (symbol : Text) :
    (!((Sample.ofLines rules lines).examples rules symbol).isEmpty || rules.isAggregated lines) =
      rules.isAggregated lines := by
  cases hlines : rules.isAggregated lines with
  | true => exact Bool.or_true _
  | false =>
      rw [Sample.examples_ofLines_eq_nil hlines]
      rfl

theorem harvestText_eq (text : Text) :
    harvester.harvestText source text =
      let shown := (Sample.ofLines harvester.dialect.rules (splitLines text)).examples
        harvester.dialect.rules ((Path.stem? source).getD [])
      (harvester.judge source shown).map fun outcome =>
        { outcome with
          isAggregated := harvester.dialect.rules.isAggregated (splitLines text)
          unitsFound := shown.length } := by
  rw [harvestText, extractExamples_eq]
  dsimp only
  rw [isAggregated_eq]
  cases harvester.judge source _ <;> rfl

/-- A file fails if it cannot be read or the oracle fails over one of its examples. -/
theorem harvestFile_error_iff :
    (∃ failure, harvester.harvestFile disk source = .error failure) ↔
      IsUnreadable disk source ∨
        ∃ shown, harvester.Shows disk source shown ∧ harvester.FailsOn shown := by
  simp only [harvestFile, IsUnreadable, Shows]
  cases hread : disk.readText source with
  | ok text =>
      have hjudge : ∀ shown, (∃ failure, harvester.judge source shown = .error failure) ↔
          ∃ one ∈ shown, harvester.FailsOn one := fun _ => judge_error_iff
      simp only [harvestText_eq, reduceCtorEq, false_and, exists_false, false_or, Except.ok.injEq,
        exists_eq_left']
      rw [← hjudge]
      cases harvester.judge source _ <;> simp [Except.map]
  | error fault =>
      cases fault <;> simp

theorem mem_harvestFile {outcome : FileHarvest}
    (h : harvester.harvestFile disk source = .ok outcome) {artifact : Artifact} :
    artifact ∈ outcome.artifacts ↔ ∃ shown, harvester.Shows disk source shown ∧
      harvester.Accepts shown ∧ artifact = harvester.artifact source shown := by
  simp only [Shows]
  rw [harvestFile] at h
  cases hread : disk.readText source with
  | ok text =>
      rw [hread] at h
      dsimp only at h
      rw [harvestText_eq] at h
      dsimp only at h
      cases hjudge : harvester.judge source
          ((Sample.ofLines harvester.dialect.rules (splitLines text)).examples
            harvester.dialect.rules ((Path.stem? source).getD [])) with
      | error failure =>
          rw [hjudge] at h
          cases h
      | ok rest =>
          rw [hjudge] at h
          cases h
          simp only [mem_judge hjudge, Except.ok.injEq, exists_eq_left']
  | error fault =>
      rw [hread] at h
      have hempty : outcome.artifacts = [] := by
        cases fault <;> cases h
        rfl
      simp [hempty]

/-- What a source file gives; nothing if it fails. -/
def given (harvester : Harvester) (disk : Disk) (source : Path) : FileHarvest :=
  match harvester.harvestFile disk source with
  | .ok outcome => outcome
  | .error _ => {}

theorem harvestFile_given
    (h : ¬∃ failure, harvester.harvestFile disk source = .error failure) :
    harvester.harvestFile disk source = .ok (harvester.given disk source) := by
  rw [given]
  cases hfile : harvester.harvestFile disk source with
  | error failure => exact absurd ⟨failure, hfile⟩ h
  | ok outcome => rfl

/-- The artifacts that a file gives are examples of it that are contained and accepted. -/
theorem mem_given {artifact : Artifact} (h : artifact ∈ (harvester.given disk source).artifacts) :
    ∃ shown, harvester.Shows disk source shown ∧ harvester.Accepts shown ∧
      artifact = harvester.artifact source shown := by
  rw [given] at h
  cases hfile : harvester.harvestFile disk source with
  | error failure =>
      rw [hfile] at h
      cases h
  | ok outcome =>
      rw [hfile] at h
      exact (mem_harvestFile hfile).mp h

/-! ### Several source files -/

theorem harvestFiles_error_iff {sources : List Path} :
    (∃ failure, harvester.harvestFiles disk sources = .error failure) ↔
      ∃ source ∈ sources, ∃ failure, harvester.harvestFile disk source = .error failure := by
  rw [← mapM_error_iff, harvestFiles]
  cases sources.mapM (harvester.harvestFile disk) <;> simp [Except.map]

/-- A harvest of files that do not fail puts together what each of them gives. -/
theorem harvestFiles_ok {sources : List Path}
    (h : ∀ source ∈ sources, ¬∃ failure, harvester.harvestFile disk source = .error failure) :
    harvester.harvestFiles disk sources = .ok (.ofFiles (sources.map (harvester.given disk))) := by
  rw [harvestFiles, mapM_ok fun source hsource => harvestFile_given (h source hsource)]
  rfl

end Harvester

namespace Harvest

/-! ### Keeping the first of each document -/

/-- The artifacts that are kept together with some that are kept already. -/
def keepFrom (kept artifacts : List Artifact) : List Artifact :=
  artifacts.foldl
    (fun kept artifact =>
      if kept.any (·.path == artifact.path) then kept else kept ++ [artifact]) kept

theorem keepFirst_eq (artifacts : List Artifact) : keepFirst artifacts = keepFrom [] artifacts :=
  rfl

theorem keepFrom_cons (kept : List Artifact) (artifact : Artifact) (artifacts : List Artifact) :
    keepFrom kept (artifact :: artifacts) =
      if ∃ other ∈ kept, other.path = artifact.path then keepFrom kept artifacts
      else keepFrom (kept ++ [artifact]) artifacts := by
  rw [keepFrom, List.foldl_cons]
  by_cases h : ∃ other ∈ kept, other.path = artifact.path
  · rw [if_pos h, if_pos (by simpa using h)]
    rfl
  · rw [if_neg h, if_neg (by simpa using h)]
    rfl

theorem keepFrom_sublist (kept artifacts : List Artifact) :
    (keepFrom kept artifacts).Sublist (kept ++ artifacts) := by
  induction artifacts generalizing kept with
  | nil =>
      rw [List.append_nil]
      exact List.Sublist.refl kept
  | cons artifact artifacts ih =>
      rw [keepFrom_cons]
      split_ifs
      · exact (ih kept).trans ((List.sublist_cons_self artifact artifacts).append_left kept)
      · have hrest := ih (kept ++ [artifact])
        rw [List.append_assoc] at hrest
        exact hrest

theorem keepFrom_paths {kept : List Artifact} (h : (kept.map Artifact.path).Nodup)
    (artifacts : List Artifact) : ((keepFrom kept artifacts).map Artifact.path).Nodup := by
  induction artifacts generalizing kept with
  | nil => exact h
  | cons artifact artifacts ih =>
      rw [keepFrom_cons]
      split_ifs with hthere
      · exact ih h
      · refine ih ?_
        rw [List.map_append]
        refine List.nodup_append.mpr ⟨h, List.pairwise_singleton _ _, ?_⟩
        rintro path hpath other hother rfl
        obtain ⟨earlier, hmem, heq⟩ := List.mem_map.mp hpath
        exact hthere ⟨earlier, hmem, heq.trans (List.mem_singleton.mp hother)⟩

theorem subset_keepFrom (kept artifacts : List Artifact) : kept ⊆ keepFrom kept artifacts := by
  induction artifacts generalizing kept with
  | nil => exact List.Subset.refl kept
  | cons artifact artifacts ih =>
      rw [keepFrom_cons]
      split_ifs
      · exact ih kept
      · exact List.Subset.trans (List.subset_append_left kept [artifact]) (ih _)

theorem exists_keepFrom {R : Artifact → Artifact → Prop} {kept artifacts : List Artifact}
    (h : (kept ++ artifacts).Pairwise R) {artifact : Artifact} (hmem : artifact ∈ artifacts) :
    ∃ first ∈ keepFrom kept artifacts, first.path = artifact.path ∧
      (first = artifact ∨ R first artifact) := by
  induction artifacts generalizing kept with
  | nil => cases hmem
  | cons head artifacts ih =>
      rw [keepFrom_cons]
      split_ifs with hthere
      · rcases List.mem_cons.mp hmem with rfl | hmem
        · obtain ⟨first, hfirst, hpath⟩ := hthere
          refine ⟨first, subset_keepFrom kept artifacts hfirst, hpath, Or.inr ?_⟩
          exact (List.pairwise_append.mp h).2.2 first hfirst _ List.mem_cons_self
        · refine ih (h.sublist ?_) hmem
          exact (List.sublist_cons_self head artifacts).append_left kept
      · rw [List.append_cons] at h
        rcases List.mem_cons.mp hmem with rfl | hmem
        · refine ⟨_, subset_keepFrom _ artifacts ?_, rfl, Or.inl rfl⟩
          exact List.mem_append_right _ (List.mem_singleton_self _)
        · exact ih h hmem

theorem keepFirst_sublist (artifacts : List Artifact) :
    (keepFirst artifacts).Sublist artifacts := by
  rw [keepFirst_eq, ← List.nil_append artifacts]
  exact keepFrom_sublist [] artifacts

/-- No two artifacts of a harvest have one document. -/
theorem keepFirst_paths (artifacts : List Artifact) :
    ((keepFirst artifacts).map Artifact.path).Nodup := by
  have hnone : (([] : List Artifact).map Artifact.path).Nodup := List.nodup_nil
  exact keepFrom_paths hnone artifacts

theorem exists_keepFirst {R : Artifact → Artifact → Prop} {artifacts : List Artifact}
    (h : artifacts.Pairwise R) {artifact : Artifact} (hmem : artifact ∈ artifacts) :
    ∃ first ∈ keepFirst artifacts, first.path = artifact.path ∧
      (first = artifact ∨ R first artifact) := by
  rw [← List.nil_append artifacts] at h
  exact exists_keepFrom h hmem

/-- Artifacts that come in their order need not be sorted. -/
theorem artifacts_ofFiles {files : List FileHarvest}
    (h : (files.flatMap FileHarvest.artifacts).Pairwise fun a b => a.le b) :
    (ofFiles files).artifacts = keepFirst (files.flatMap FileHarvest.artifacts) :=
  congrArg keepFirst (List.mergeSort_of_pairwise h)

theorem mem_ofFiles {files : List FileHarvest} {artifact : Artifact}
    (h : artifact ∈ (ofFiles files).artifacts) : ∃ file ∈ files, artifact ∈ file.artifacts := by
  have hmem := (keepFirst_sublist _).subset h
  exact List.mem_flatMap.mp ((List.mergeSort_perm _ _).mem_iff.mp hmem)

end Harvest

namespace Harvester

variable {harvester : Harvester} {disk : Disk} {sources : Path} {harvest : Harvest}

theorem permitFault?_eq_none_iff :
    harvester.permitFault? = none ↔ harvester.concurrency ≤ maxPermits := by
  rw [permitFault?]
  split_ifs with h
  · simpa using h
  · simpa using h

theorem harvest_eq_of_discover {files : List Path}
    (hfiles : disk.discover harvester.dialect.rules sources = .ok files)
    (hpermits : harvester.concurrency ≤ maxPermits) :
    harvester.harvest disk sources = harvester.harvestFiles disk files := by
  rw [Harvester.harvest, hfiles, permitFault?_eq_none_iff.mpr hpermits]
  rfl

theorem harvest_ok_iff : harvester.harvest disk sources = .ok harvest ↔
    ∃ files, disk.discover harvester.dialect.rules sources = .ok files ∧
      harvester.concurrency ≤ maxPermits ∧ harvester.harvestFiles disk files = .ok harvest := by
  constructor
  · intro h
    cases hfiles : disk.discover harvester.dialect.rules sources with
    | error failure =>
        rw [Harvester.harvest, hfiles] at h
        cases h
    | ok files =>
        by_cases hpermits : harvester.concurrency ≤ maxPermits
        · rw [harvest_eq_of_discover hfiles hpermits] at h
          exact ⟨files, rfl, hpermits, h⟩
        · obtain ⟨failure, hfault⟩ := Option.ne_none_iff_exists'.mp
            (mt permitFault?_eq_none_iff.mp hpermits)
          rw [Harvester.harvest, hfiles, hfault] at h
          cases h
  · rintro ⟨files, hfiles, hpermits, hgiven⟩
    rw [harvest_eq_of_discover hfiles hpermits, hgiven]

/-- A harvest puts together what its files give. -/
theorem exists_harvest_eq (h : harvester.harvest disk sources = .ok harvest) :
    ∃ files : List Path, harvest = .ofFiles (files.map (harvester.given disk)) := by
  obtain ⟨files, -, -, hgiven⟩ := harvest_ok_iff.mp h
  rw [harvestFiles_ok fun source hsource hfails => by
    obtain ⟨failure, hfailure⟩ := harvestFiles_error_iff.mpr ⟨source, hsource, hfails⟩
    cases hgiven.symm.trans hfailure] at hgiven
  exact ⟨files, (Except.ok.inj hgiven).symm⟩

/-- The artifacts of a harvest are examples of source files that are contained and accepted. -/
theorem mem_harvest (h : harvester.harvest disk sources = .ok harvest) {artifact : Artifact}
    (hmem : artifact ∈ harvest.artifacts) :
    ∃ source shown, harvester.Shows disk source shown ∧ harvester.Accepts shown ∧
      artifact = harvester.artifact source shown := by
  obtain ⟨files, rfl⟩ := exists_harvest_eq h
  obtain ⟨file, hfile, hartifact⟩ := Harvest.mem_ofFiles hmem
  obtain ⟨source, -, rfl⟩ := List.mem_map.mp hfile
  obtain ⟨shown, hshows, haccepts, hartifact⟩ := mem_given hartifact
  exact ⟨source, shown, hshows, haccepts, hartifact⟩

/-- Every artifact of a harvest is contained, and no two of them have one document. -/
theorem harvest_artifacts (h : harvester.harvest disk sources = .ok harvest) :
    (∀ artifact ∈ harvest.artifacts, artifact.target.isContained) ∧
      (harvest.artifacts.map Artifact.path).Nodup := by
  constructor
  · intro artifact hmem
    obtain ⟨source, shown, -, haccepts, rfl⟩ := mem_harvest h hmem
    exact haccepts.1
  · obtain ⟨files, rfl⟩ := exists_harvest_eq h
    exact Harvest.keepFirst_paths _

theorem harvest_accepted (h : harvester.harvest disk sources = .ok harvest) :
    harvest.report.accepted = harvest.artifacts.length := by
  obtain ⟨files, rfl⟩ := exists_harvest_eq h
  rfl

/-- An artifact of a harvest is published where its reference says. -/
theorem target_of_mem_harvest (h : harvester.harvest disk sources = .ok harvest)
    {artifact : Artifact} (hmem : artifact ∈ harvest.artifacts) :
    artifact.target =
      Target.ofReference artifact.reference harvester.dialect.rules.folderSuffix := by
  obtain ⟨source, shown, ⟨text, -, hshown⟩, -, rfl⟩ := mem_harvest h hmem
  exact Sample.target_of_mem_examples hshown

end Harvester

end SampleHarvest
