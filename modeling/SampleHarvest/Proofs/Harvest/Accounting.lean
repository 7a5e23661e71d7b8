import SampleHarvest.Proofs.Harvest.Scheduling

/-!
# The accounts of a harvest

Every valid unit of a source file is counted once: it is skipped because its target is not
contained, or it is offered to the oracle and then accepted or rejected. Dropping an artifact whose
document is taken moves a unit from the accepted to the skipped ones, so the sum stays the number of
units.

The oracle is asked about the examples with a contained target, in their order, and about nothing
else. An oracle that gives the same answers to these questions leads to the same harvest, and one
that fails over any of them makes the harvest fail.
-/

namespace SampleHarvest

/-- The lines of a source file; none if it holds no text. -/
def Disk.linesOf (disk : Disk) (source : Path) : List Line :=
  match disk.readText source with
  | .ok text => splitLines text
  | .error _ => []

namespace Example

/-- Whether the document of an example lies below the output root. -/
def isContained (shown : Example) : Bool := shown.target.isContained

structure IsOf (shown : Example) (u : SampleUnit) (index : Nat) : Prop where
  reference : u.reference? = some shown.reference
  index : shown.index = index
  start : shown.start = u.start
  stop : shown.stop = u.stop

end Example

theorem Sample.forall₂_examples {sample : Sample} (h : ∀ u ∈ sample.units, u.isValid)
    (rules : DialectRules) (symbol : Text) :
    List.Forall₂ (fun entry shown => shown.IsOf entry.1 entry.2) sample.units.zipIdx
      (sample.examples rules symbol) := by
  rw [examples]
  have hvalid : ∀ entry ∈ sample.units.zipIdx, entry.1.isValid := fun entry hentry =>
    h entry.1 (List.fst_mem_of_mem_zipIdx hentry)
  generalize sample.units.zipIdx = entries at hvalid
  induction entries with
  | nil => exact .nil
  | cons entry entries ih =>
      obtain ⟨hentry, hentries⟩ := List.forall_mem_cons.mp hvalid
      obtain ⟨reference, hreference⟩ := Option.isSome_iff_exists.mp hentry
      simp only [List.filterMap_cons, hreference, Option.map_some]
      exact .cons ⟨hreference, rfl, rfl, rfl⟩ (ih hentries)

namespace Harvester

variable {harvester : Harvester} {disk : Disk} {source : Path} {shown : List Example}

def validUnits (harvester : Harvester) (disk : Disk) (source : Path) : List SampleUnit :=
  (harvester.dialect.rules.scan (disk.linesOf source)).filter SampleUnit.isValid

def examplesOf (harvester : Harvester) (disk : Disk) (source : Path) : List Example :=
  (Sample.ofLines harvester.dialect.rules (disk.linesOf source)).examples harvester.dialect.rules
    ((Path.stem? source).getD [])

/-- The candidates in a source file: its examples with a contained target. -/
def candidatesOf (harvester : Harvester) (disk : Disk) (source : Path) : List Candidate :=
  ((harvester.examplesOf disk source).filter Example.isContained).map harvester.candidate

def withOracle (harvester : Harvester) (other : Oracle) : Harvester :=
  { harvester with oracle := other }

/-! ### One source file -/

/-- The examples of a file show its valid units, one each, in their order. -/
theorem forall₂_examplesOf (harvester : Harvester) (disk : Disk) (source : Path) :
    List.Forall₂ (fun entry shown => shown.IsOf entry.1 entry.2)
      (harvester.validUnits disk source).zipIdx (harvester.examplesOf disk source) := by
  rw [validUnits, ← Sample.units_ofLines]
  refine Sample.forall₂_examples (fun u hu => ?_) _ _
  rw [Sample.units_ofLines] at hu
  exact (List.mem_filter.mp hu).2

theorem length_examplesOf (harvester : Harvester) (disk : Disk) (source : Path) :
    (harvester.examplesOf disk source).length = (harvester.validUnits disk source).length := by
  rw [← (harvester.forall₂_examplesOf disk source).length_eq, List.length_zipIdx]

/-- Each example of a file is accepted, rejected or skipped, and the contained ones are offered. -/
theorem judge_accounts {outcome : FileHarvest} (h : harvester.judge source shown = .ok outcome) :
    outcome.artifacts.length + outcome.rejected + outcome.skipped = shown.length ∧
      outcome.offered = (shown.filter Example.isContained).map harvester.candidate := by
  induction shown generalizing outcome with
  | nil =>
      cases h
      exact ⟨rfl, rfl⟩
  | cons one shown ih =>
      by_cases hcontained : one.target.isContained
      · have hfilter : (one :: shown).filter Example.isContained =
            one :: shown.filter Example.isContained := List.filter_cons_of_pos hcontained
        rw [judge_cons_of_contained hcontained] at h
        rw [hfilter, List.map_cons, List.length_cons]
        cases horacle : harvester.oracle (harvester.candidate one) with
        | error failure => simp [horacle] at h
        | ok verdict =>
            cases hjudge : harvester.judge source shown with
            | error failure => simp [horacle, hjudge] at h
            | ok rest =>
                obtain ⟨hsum, hoffered⟩ := ih hjudge
                rw [horacle, hjudge] at h
                cases verdict with
                | accept =>
                    cases h
                    refine ⟨?_, by rw [hoffered]⟩
                    simp only [List.length_cons]
                    omega
                | reject diagnostics =>
                    cases h
                    refine ⟨?_, by rw [hoffered]⟩
                    dsimp only
                    omega
      · have hfilter : (one :: shown).filter Example.isContained =
            shown.filter Example.isContained := List.filter_cons_of_neg hcontained
        rw [judge_cons_of_not_contained hcontained] at h
        rw [hfilter, List.length_cons]
        cases hjudge : harvester.judge source shown with
        | error failure => simp [hjudge, Except.map] at h
        | ok rest =>
            obtain ⟨hsum, hoffered⟩ := ih hjudge
            rw [hjudge] at h
            cases h
            refine ⟨?_, hoffered⟩
            dsimp only
            omega

/-- An oracle that answers the same about the contained examples is no other oracle for them. -/
theorem judge_withOracle {other : Oracle}
    (h : ∀ candidate ∈ (shown.filter Example.isContained).map harvester.candidate,
      other candidate = harvester.oracle candidate) :
    (harvester.withOracle other).judge source shown = harvester.judge source shown := by
  induction shown with
  | nil => rfl
  | cons one shown ih =>
      by_cases hcontained : one.target.isContained
      · have hfilter : (one :: shown).filter Example.isContained =
            one :: shown.filter Example.isContained := List.filter_cons_of_pos hcontained
        rw [hfilter, List.map_cons] at h
        obtain ⟨hone, hrest⟩ := List.forall_mem_cons.mp h
        have hsame : (harvester.withOracle other).oracle ((harvester.withOracle other).candidate one) =
            harvester.oracle (harvester.candidate one) := hone
        rw [judge_cons_of_contained hcontained, judge_cons_of_contained hcontained, ih hrest, hsame]
        rfl
      · have hfilter : (one :: shown).filter Example.isContained =
            shown.filter Example.isContained := List.filter_cons_of_neg hcontained
        rw [hfilter] at h
        rw [judge_cons_of_not_contained hcontained, judge_cons_of_not_contained hcontained, ih h]

theorem shows_iff {one : Example} :
    harvester.Shows disk source one ↔ one ∈ harvester.examplesOf disk source := by
  rw [Shows, examplesOf, Disk.linesOf]
  cases disk.readText source with
  | ok text => simp
  | error fault => simp [Sample.ofLines, DialectRules.scan, DialectRules.scanFrom, Sample.examples]

/-- The accounts of a source file with this outcome are in order. -/
structure IsAccountOf (harvester : Harvester) (disk : Disk) (source : Path)
    (outcome : FileHarvest) : Prop where
  /-- The file counts as aggregated if one of its lines is a marker. -/
  aggregated : outcome.isAggregated = harvester.dialect.rules.isAggregated (disk.linesOf source)
  found : outcome.unitsFound = (harvester.validUnits disk source).length
  balanced : outcome.artifacts.length + outcome.rejected + outcome.skipped = outcome.unitsFound
  offers : outcome.offered = harvester.candidatesOf disk source

theorem harvestFile_accounts {outcome : FileHarvest}
    (h : harvester.harvestFile disk source = .ok outcome) :
    harvester.IsAccountOf disk source outcome := by
  have hlength := harvester.length_examplesOf disk source
  rw [harvestFile] at h
  cases hread : disk.readText source with
  | ok text =>
      have hlines : disk.linesOf source = splitLines text := by rw [Disk.linesOf, hread]
      rw [hread] at h
      dsimp only at h
      rw [harvestText_eq, ← hlines] at h
      change (harvester.judge source (harvester.examplesOf disk source)).map _ = _ at h
      cases hjudge : harvester.judge source (harvester.examplesOf disk source) with
      | error failure =>
          rw [hjudge] at h
          cases h
      | ok rest =>
          obtain ⟨hsum, hoffered⟩ := judge_accounts hjudge
          rw [hjudge] at h
          cases h
          exact ⟨rfl, hlength, hsum, hoffered⟩
  | error fault =>
      have hlines : disk.linesOf source = [] := by rw [Disk.linesOf, hread]
      have houtcome : outcome = {} := by
        rw [hread] at h
        cases fault <;> cases h
        rfl
      have hnone : harvester.examplesOf disk source = [] := by
        rw [examplesOf, hlines]
        rfl
      rw [hnone] at hlength
      rw [houtcome]
      refine ⟨?_, hlength, rfl, ?_⟩
      · rw [hlines]
        rfl
      · rw [candidatesOf, hnone]
        rfl

theorem harvestFile_withOracle {other : Oracle}
    (h : ∀ candidate ∈ harvester.candidatesOf disk source,
      other candidate = harvester.oracle candidate) :
    (harvester.withOracle other).harvestFile disk source = harvester.harvestFile disk source := by
  rw [harvestFile, harvestFile]
  cases hread : disk.readText source with
  | error fault => cases fault <;> rfl
  | ok text =>
      rw [candidatesOf, examplesOf, Disk.linesOf, hread] at h
      dsimp only
      rw [harvestText_eq, harvestText_eq]
      exact congrArg (Except.map _) (judge_withOracle h)

theorem harvestFile_withOracle_fails {other : Oracle} {candidate : Candidate}
    (hmem : candidate ∈ harvester.candidatesOf disk source)
    (hfails : ∃ failure, other candidate = .error failure) :
    ∃ failure, (harvester.withOracle other).harvestFile disk source = .error failure := by
  obtain ⟨one, hone, rfl⟩ := List.mem_map.mp hmem
  obtain ⟨hone, hcontained⟩ := List.mem_filter.mp hone
  exact harvestFile_error_iff.mpr (.inr ⟨one, shows_iff.mpr hone, hcontained, hfails⟩)

end Harvester

/-! ### Several source files -/

namespace Harvest

theorem total_eq_length_flatMap {counter : FileHarvest → Nat} {given : Path → FileHarvest}
    {found : Path → List SampleUnit} {sources : List Path}
    (h : ∀ source ∈ sources, counter (given source) = (found source).length) :
    total counter (sources.map given) = (sources.flatMap found).length := by
  induction sources with
  | nil => rfl
  | cons source sources ih =>
      obtain ⟨hsource, hsources⟩ := List.forall_mem_cons.mp h
      rw [List.map_cons, total, List.flatMap_cons, List.length_append, hsource, ih hsources]

/-- To keep the first of each document moves units from the accepted to the skipped ones. -/
theorem ofFiles_balanced {files : List FileHarvest}
    (h : ∀ file ∈ files,
      file.artifacts.length + file.rejected + file.skipped = file.unitsFound) :
    (ofFiles files).report.accepted + (ofFiles files).report.rejected +
      (ofFiles files).report.skipped = (ofFiles files).report.unitsFound := by
  have hfiles : (files.flatMap FileHarvest.artifacts).length + total FileHarvest.rejected files +
      total FileHarvest.skipped files = total FileHarvest.unitsFound files := by
    induction files with
    | nil => rfl
    | cons file files ih =>
        obtain ⟨hfile, hrest⟩ := List.forall_mem_cons.mp h
        have hfiles := ih hrest
        simp only [List.flatMap_cons, List.length_append, total]
        omega
  have hsorted := ((files.flatMap FileHarvest.artifacts).mergeSort_perm Artifact.le).length_eq
  have hkept :=
    (keepFirst_sublist ((files.flatMap FileHarvest.artifacts).mergeSort Artifact.le)).length_le
  simp only [ofFiles]
  omega

end Harvest

namespace Harvester

variable {harvester : Harvester} {disk : Disk} {sources : Path} {files order : List Path}
  {harvest : Harvest}

theorem exists_harvestFiles_eq (h : harvester.harvestFiles disk files = .ok harvest) :
    harvest = .ofFiles (files.map (harvester.given disk)) ∧
      ∀ source ∈ files, harvester.IsAccountOf disk source (harvester.given disk source) := by
  have hnone : ∀ source ∈ files,
      ¬∃ failure, harvester.harvestFile disk source = .error failure := by
    intro source hsource hfails
    obtain ⟨failure, hfailure⟩ := harvestFiles_error_iff.mpr ⟨source, hsource, hfails⟩
    rw [hfailure] at h
    cases h
  rw [harvestFiles_ok hnone] at h
  exact ⟨(Except.ok.inj h).symm, fun source hsource =>
    harvestFile_accounts (harvestFile_given (hnone source hsource))⟩

theorem harvestFiles_withOracle {other : Oracle}
    (h : ∀ source ∈ files, ∀ candidate ∈ harvester.candidatesOf disk source,
      other candidate = harvester.oracle candidate) :
    (harvester.withOracle other).harvestFiles disk files = harvester.harvestFiles disk files := by
  have hmap : files.mapM ((harvester.withOracle other).harvestFile disk) =
      files.mapM (harvester.harvestFile disk) := by
    induction files with
    | nil => rfl
    | cons source files ih =>
        obtain ⟨hsource, hfiles⟩ := List.forall_mem_cons.mp h
        rw [List.mapM_cons, List.mapM_cons, harvestFile_withOracle hsource, ih hfiles]
  rw [harvestFiles, harvestFiles, hmap]

/-- **The accounts.** Let the discovered files be done in any order in which they may complete; the
harvest of a folder is that of its files in their own order, if there are permits for so many at the
same time. A harvest that succeeds counts every file, every one of them with a marker and every valid
unit, and each of the latter is accepted, rejected or skipped. The offers are the contained examples
of the files, in their order in each file, where the examples of a file show its valid units, one
each. These are all the questions to the oracle: another one with the same answers to them gives the
same harvest, and one that fails over any of them makes the harvest fail. -/
theorem harvest_accounts {bound : Nat}
    (hfiles : disk.discover harvester.dialect.rules sources = .ok files)
    (horder : CompletesIn bound files [] order)
    (h : harvester.harvestFiles disk order = .ok harvest) :
    (harvester.concurrency ≤ maxPermits →
      harvester.harvest disk sources = harvester.harvestFiles disk files) ∧
    (harvest.report.unitsFound =
        harvest.report.accepted + harvest.report.rejected + harvest.report.skipped ∧
      harvest.report.accepted = harvest.artifacts.length ∧
      harvest.report.filesScanned = files.length ∧
      harvest.report.aggregatedFiles = files.countP (fun source =>
        harvester.dialect.rules.isAggregated (disk.linesOf source)) ∧
      harvest.report.unitsFound = (files.flatMap (harvester.validUnits disk)).length) ∧
    (∀ source, List.Forall₂ (fun entry shown => shown.IsOf entry.1 entry.2)
      (harvester.validUnits disk source).zipIdx (harvester.examplesOf disk source)) ∧
    harvest.offered = order.flatMap (harvester.candidatesOf disk) ∧
    (∀ other : Oracle,
      (∀ candidate ∈ harvest.offered, other candidate = harvester.oracle candidate) →
        (harvester.withOracle other).harvestFiles disk order = .ok harvest) ∧
    ∀ other : Oracle, (∃ candidate ∈ harvest.offered, ∃ failure, other candidate = .error failure) →
      ∃ failure, (harvester.withOracle other).harvestFiles disk order = .error failure := by
  obtain ⟨rfl, haccounts⟩ := exists_harvestFiles_eq h
  have hperm : order.Perm files := horder.perm
  have hoffered : (Harvest.ofFiles (order.map (harvester.given disk))).offered =
      order.flatMap (harvester.candidatesOf disk) := by
    change (order.map (harvester.given disk)).flatMap FileHarvest.offered = _
    rw [List.flatMap_map]
    exact List.flatMap_congr fun source hsource => (haccounts source hsource).offers
  refine ⟨?_, ⟨?_, rfl, ?_, ?_, ?_⟩, harvester.forall₂_examplesOf disk, hoffered, ?_, ?_⟩
  · exact harvest_eq_of_discover hfiles
  · refine (Harvest.ofFiles_balanced ?_).symm
    intro file hfile
    obtain ⟨source, hsource, rfl⟩ := List.mem_map.mp hfile
    exact (haccounts source hsource).balanced
  · rw [Harvest.ofFiles, List.length_map, hperm.length_eq]
  · rw [← hperm.countP_eq, Harvest.ofFiles, List.countP_map]
    exact List.countP_congr fun source hsource => by
      rw [Function.comp_apply, (haccounts source hsource).aggregated]
  · have htotal := Harvest.total_perm FileHarvest.unitsFound (hperm.map (harvester.given disk))
    refine htotal.trans (Harvest.total_eq_length_flatMap fun source hsource => ?_)
    exact (haccounts source (hperm.mem_iff.mpr hsource)).found
  · intro other hother
    rw [hoffered] at hother
    rw [harvestFiles_withOracle fun source hsource candidate hcandidate =>
      hother candidate (List.mem_flatMap.mpr ⟨source, hsource, hcandidate⟩)]
    exact h
  · rintro other ⟨candidate, hcandidate, hfails⟩
    rw [hoffered] at hcandidate
    obtain ⟨source, hsource, hmem⟩ := List.mem_flatMap.mp hcandidate
    exact harvestFiles_error_iff.mpr ⟨source, hsource, harvestFile_withOracle_fails hmem hfails⟩

/-- The theorem above for two files that complete the other way round; one is rejected. -/
theorem harvest_accounts_twoSources :
    twoSources.discover rejectsFirst.dialect.rules "in" = .ok ["in/a_test.go", "in/b_test.go"] ∧
      CompletesIn 2 ["in/a_test.go", "in/b_test.go"] [] ["in/b_test.go", "in/a_test.go"] ∧
      ∃ harvest, rejectsFirst.harvestFiles twoSources ["in/b_test.go", "in/a_test.go"] =
          .ok harvest ∧
        harvest.report.unitsFound =
          harvest.report.accepted + harvest.report.rejected + harvest.report.skipped ∧
        harvest.report.accepted = 1 ∧ harvest.report.rejected = 1 ∧
        harvest.report.filesScanned = 2 := by
  have horder : CompletesIn 2 ["in/a_test.go", "in/b_test.go"] []
      ["in/b_test.go", "in/a_test.go"] := .of_perm (List.Perm.swap _ _ _) (by decide)
  have hcounts : (rejectsFirst.harvestFiles twoSources
      ["in/b_test.go", "in/a_test.go"]).toOption.map (fun harvest =>
        (harvest.report.accepted, harvest.report.rejected)) = some (1, 1) := by
    decide +kernel
  refine ⟨twoSources_files, horder, ?_⟩
  cases hharvest : rejectsFirst.harvestFiles twoSources ["in/b_test.go", "in/a_test.go"] with
  | error failure =>
      rw [hharvest] at hcounts
      cases hcounts
  | ok harvest =>
      obtain ⟨-, ⟨hbalanced, -, hscanned, -⟩, -⟩ :=
        harvest_accounts twoSources_files horder hharvest
      rw [hharvest] at hcounts
      obtain ⟨haccepted, hrejected⟩ := Prod.mk.inj (Option.some.inj hcounts)
      exact ⟨harvest, rfl, hbalanced, haccepted, hrejected, hscanned⟩

end Harvester

end SampleHarvest
