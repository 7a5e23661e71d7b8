import SampleHarvest.Proofs.Harvest.Descent
import SampleHarvest.Proofs.Harvest.Order

/-!
# Harvests under any schedule

The files of a harvest are done at the same time, up to some number of them, and complete in any
order. The harvest does not depend on it: it is the list of accepted examples in the order of source
and number, without those whose document an earlier one has, and it fails in every order if it fails
in one.

All this begins when the files are known and there are permits for them. A folder of the sources that
cannot be read makes every harvest fail, and so does a number of files at the same time for which
there are not enough permits.
-/

namespace SampleHarvest

/-- An order in which files complete. Files that wait are started in their order while fewer than
the bound run, and each of those that run may be the next to complete. -/
inductive CompletesIn (bound : Nat) : (waiting running order : List Path) → Prop
  | done : CompletesIn bound [] [] []
  | start {source : Path} {waiting running order : List Path} (hroom : running.length < bound)
      (hrest : CompletesIn bound waiting (source :: running) order) :
      CompletesIn bound (source :: waiting) running order
  | finish {source : Path} {waiting running order : List Path} (hmem : source ∈ running)
      (hrest : CompletesIn bound waiting (running.erase source) order) :
      CompletesIn bound waiting running (source :: order)

namespace CompletesIn

variable {bound : Nat} {waiting running order : List Path}

/-- Every file completes once. -/
theorem perm (h : CompletesIn bound waiting running order) : order.Perm (running ++ waiting) := by
  induction h with
  | done => exact List.Perm.refl _
  | start _ _ ih => exact ih.trans List.perm_middle.symm
  | @finish source waiting running order hmem _ ih =>
      have hback := (List.perm_cons_erase hmem).symm.append_right waiting
      exact (ih.cons source).trans hback

theorem of_running (h : order.Perm running) : CompletesIn bound [] running order := by
  induction order generalizing running with
  | nil =>
      rw [List.nil_perm.mp h]
      exact .done
  | cons source order ih =>
      have hmem : source ∈ running := h.mem_iff.mp List.mem_cons_self
      exact .finish hmem (ih (List.cons_perm_iff_perm_erase.mp h).2)

/-- If all files may run at the same time, every order is possible. -/
theorem of_perm (h : order.Perm (running ++ waiting))
    (hbound : running.length + waiting.length ≤ bound) :
    CompletesIn bound waiting running order := by
  induction waiting generalizing running with
  | nil =>
      rw [List.append_nil] at h
      exact of_running h
  | cons source waiting ih =>
      rw [List.length_cons] at hbound
      refine .start (by omega) (ih (h.trans List.perm_middle) ?_)
      rw [List.length_cons]
      omega

theorem one_by_one (hbound : 0 < bound) (files : List Path) : CompletesIn bound files [] files := by
  induction files with
  | nil => exact .done
  | cons source files ih =>
      refine .start hbound (.finish List.mem_cons_self ?_)
      rw [List.erase_cons_head]
      exact ih

end CompletesIn

namespace Harvester

/-- A harvest of these files fails: one of them cannot be read, or the oracle fails over one of its
contained examples. -/
def Fails (harvester : Harvester) (disk : Disk) (files : List Path) : Prop :=
  ∃ source ∈ files, IsUnreadable disk source ∨
    ∃ shown, harvester.Shows disk source shown ∧ harvester.FailsOn shown

/-- The artifact is made of a contained and accepted example of one of these files. -/
def Yields (harvester : Harvester) (disk : Disk) (files : List Path) (artifact : Artifact) : Prop :=
  ∃ source ∈ files, ∃ shown, harvester.Shows disk source shown ∧ harvester.Accepts shown ∧
    artifact = harvester.artifact source shown

inductive EndsWith (harvester : Harvester) (disk : Disk) (sources : Path) :
    Except Failure Harvest → Prop
  | undiscovered {failure : Failure}
      (hfiles : disk.discover harvester.dialect.rules sources = .error failure) :
      EndsWith harvester disk sources (.error failure)
  | aborted {failure : Failure} {files : List Path}
      (hfiles : disk.discover harvester.dialect.rules sources = .ok files)
      (hfault : harvester.permitFault? = some failure) :
      EndsWith harvester disk sources (.error failure)
  | completed {files order : List Path}
      (hfiles : disk.discover harvester.dialect.rules sources = .ok files)
      (hpermits : harvester.permitFault? = none)
      (horder : CompletesIn harvester.concurrency files [] order) :
      EndsWith harvester disk sources (harvester.harvestFiles disk order)

variable {harvester : Harvester} {disk : Disk} {files order : List Path} {sources : Path}
  {ending : Except Failure Harvest}

/-- The files may complete in the order in which they were discovered. -/
theorem endsWith_harvest (hconcurrency : 0 < harvester.concurrency) :
    harvester.EndsWith disk sources (harvester.harvest disk sources) := by
  rw [harvest]
  cases hfiles : disk.discover harvester.dialect.rules sources with
  | error failure => exact .undiscovered hfiles
  | ok files =>
      cases hfault : harvester.permitFault? with
      | some failure => exact .aborted hfiles hfault
      | none => exact .completed hfiles hfault (.one_by_one hconcurrency files)

theorem EndsWith.of_discover (h : harvester.EndsWith disk sources ending)
    (hfiles : disk.discover harvester.dialect.rules sources = .ok files)
    (hpermits : harvester.concurrency ≤ maxPermits) :
    ∃ order : List Path, order.Perm files ∧ ending = harvester.harvestFiles disk order := by
  cases h with
  | undiscovered hnone => cases hnone.symm.trans hfiles
  | aborted _ hfault =>
      rw [permitFault?_eq_none_iff.mpr hpermits] at hfault
      cases hfault
  | @completed others order hothers _ horder =>
      obtain rfl := Except.ok.inj (hothers.symm.trans hfiles)
      exact ⟨order, horder.perm, rfl⟩

/-- A harvest ends well only if its files are discovered and there are enough permits. -/
theorem EndsWith.of_ok {harvest : Harvest} (h : harvester.EndsWith disk sources (.ok harvest)) :
    (∃ files, disk.discover harvester.dialect.rules sources = .ok files) ∧
      harvester.concurrency ≤ maxPermits := by
  generalize hending : Except.ok harvest = ending at h
  cases h with
  | undiscovered | aborted => cases hending
  | completed hfiles hpermits => exact ⟨⟨_, hfiles⟩, permitFault?_eq_none_iff.mp hpermits⟩

theorem fails_iff :
    harvester.Fails disk files ↔
      ∃ source ∈ files, ∃ failure, harvester.harvestFile disk source = .error failure := by
  simp only [Fails, harvestFile_error_iff]

theorem mem_files_given (h : ¬harvester.Fails disk files) {artifact : Artifact} :
    artifact ∈ (files.map (harvester.given disk)).flatMap FileHarvest.artifacts ↔
      harvester.Yields disk files artifact := by
  have hgiven : ∀ source ∈ files,
      harvester.harvestFile disk source = .ok (harvester.given disk source) := fun source hsource =>
    harvestFile_given fun hfails => h (fails_iff.mpr ⟨source, hsource, hfails⟩)
  rw [List.flatMap_map, List.mem_flatMap]
  constructor
  · rintro ⟨source, hsource, hmem⟩
    exact ⟨source, hsource, (mem_harvestFile (hgiven source hsource)).mp hmem⟩
  · rintro ⟨source, hsource, hyields⟩
    exact ⟨source, hsource, (mem_harvestFile (hgiven source hsource)).mpr hyields⟩

/-- An example of a file is known by its number. -/
theorem Shows.eq_of_index {source : Path} {a b : Example} (ha : harvester.Shows disk source a)
    (hb : harvester.Shows disk source b) (hindex : a.index = b.index) : a = b := by
  obtain ⟨text, htext, ha⟩ := ha
  obtain ⟨text', htext', hb⟩ := hb
  obtain rfl := Except.ok.inj (htext.symm.trans htext')
  exact Sample.eq_of_index ha hb hindex

/-- What discovered files yield is known by source and number. -/
theorem isKeyed_given (hnames : disk.root.HasFileNames)
    (hfiles : disk.discover harvester.dialect.rules sources = .ok files)
    (h : ¬harvester.Fails disk files) :
    Harvest.IsKeyed ((files.map (harvester.given disk)).flatMap FileHarvest.artifacts) := by
  refine ⟨fun a ha b hb hcomponents => ?_, fun a ha b hb hsource hindex => ?_⟩
  all_goals
    obtain ⟨source, hmem, shown, hshown, -, rfl⟩ := (mem_files_given h).mp ha
    obtain ⟨source', hmem', shown', hshown', -, rfl⟩ := (mem_files_given h).mp hb
  · exact Disk.discover_eq_of_components hnames hfiles hmem hmem' hcomponents
  · obtain rfl : source = source' := hsource
    rw [hshown.eq_of_index hshown' hindex]

theorem harvestFiles_of_perm (h : ¬harvester.Fails disk files) (hperm : order.Perm files) :
    harvester.harvestFiles disk order = .ok (.ofFiles (order.map (harvester.given disk))) :=
  harvestFiles_ok fun source hsource hfails =>
    h (fails_iff.mpr ⟨source, hperm.mem_iff.mp hsource, hfails⟩)

/-- What files give that do not fail: in every order the same harvest, whose artifacts are known. -/
theorem exists_harvest_of_not_fails (hnames : disk.root.HasFileNames)
    (hfiles : disk.discover harvester.dialect.rules sources = .ok files)
    (hfails : ¬harvester.Fails disk files) :
    ∃ harvest, harvester.harvestFiles disk files = .ok harvest ∧
      (∀ order : List Path, order.Perm files → ∃ offered, offered.Perm harvest.offered ∧
        harvester.harvestFiles disk order = .ok { harvest with offered }) ∧
      harvest.artifacts.Pairwise Artifact.IsEarlier ∧
      (∀ artifact, artifact ∈ harvest.artifacts ↔ harvester.Yields disk files artifact ∧
        ∀ other, harvester.Yields disk files other → other.IsEarlier artifact →
          other.path ≠ artifact.path) ∧
      ∀ artifact ∈ harvest.artifacts, ∃ code,
        harvester.oracle ⟨harvester.dialect, artifact.target.stem, code⟩ = .ok .accept ∧
          artifact.content = harvester.style.document code := by
  have hkeyed := isKeyed_given hnames hfiles hfails
  have hkept : ∀ artifact,
      artifact ∈ (Harvest.ofFiles (files.map (harvester.given disk))).artifacts ↔
        harvester.Yields disk files artifact ∧ ∀ other, harvester.Yields disk files other →
          other.IsEarlier artifact → other.path ≠ artifact.path := by
    intro artifact
    simp only [← mem_files_given hfails]
    exact hkeyed.mem_keepFirst
  refine ⟨.ofFiles (files.map (harvester.given disk)),
    harvestFiles_of_perm hfails (List.Perm.refl files), fun order hperm => ?_,
    hkeyed.keepFirst_pairwise, hkept, fun artifact hmem => ?_⟩
  · obtain ⟨hartifacts, hreport, hoffered⟩ :=
      Harvest.ofFiles_perm hkeyed (hperm.map (harvester.given disk))
    refine ⟨_, hoffered, ?_⟩
    rw [harvestFiles_of_perm hfails hperm, ← hartifacts, ← hreport]
  · obtain ⟨source, -, shown, -, haccepts, rfl⟩ := ((hkept artifact).mp hmem).1
    exact ⟨shown.code, haccepts.2, rfl⟩

/-- **Any schedule.** The harvest is one of the ends that it may come to. If a folder of the sources
cannot be read by its path, if a discovered file cannot be read, if the oracle fails over a contained
example of one, or if there are not enough permits, the harvest fails in every order in which the
files may complete. Otherwise every order gives the same harvest, but for the order of the offers. Its
artifacts are in their order, each shows the source that the oracle accepted, and they are the
accepted examples whose document no earlier accepted example has. -/
theorem harvest_any_schedule (hnames : disk.root.HasFileNames)
    (hdistinct : disk.root.HasDistinctNames) :
    (0 < harvester.concurrency →
      harvester.EndsWith disk sources (harvester.harvest disk sources)) ∧
    ((¬∃ entries, disk.CanRead sources entries) →
      ∀ ending, harvester.EndsWith disk sources ending → ∃ failure, ending = .error failure) ∧
    (maxPermits < harvester.concurrency →
      ∀ ending, harvester.EndsWith disk sources ending → ∃ failure, ending = .error failure) ∧
    ∀ entries, disk.CanRead sources entries → harvester.concurrency ≤ maxPermits →
      ∃ files, disk.discover harvester.dialect.rules sources = .ok files ∧
        (harvester.Fails disk files →
          ∀ ending, harvester.EndsWith disk sources ending → ∃ failure, ending = .error failure) ∧
        (¬harvester.Fails disk files → ∃ harvest, harvester.harvest disk sources = .ok harvest ∧
          (∀ ending, harvester.EndsWith disk sources ending → ∃ offered,
            offered.Perm harvest.offered ∧ ending = .ok { harvest with offered }) ∧
          harvest.artifacts.Pairwise Artifact.IsEarlier ∧
          (∀ artifact, artifact ∈ harvest.artifacts ↔ harvester.Yields disk files artifact ∧
            ∀ other, harvester.Yields disk files other → other.IsEarlier artifact →
              other.path ≠ artifact.path) ∧
          ∀ artifact ∈ harvest.artifacts, ∃ code,
            harvester.oracle ⟨harvester.dialect, artifact.target.stem, code⟩ = .ok .accept ∧
              artifact.content = harvester.style.document code) := by
  have hreads : (∃ files, disk.discover harvester.dialect.rules sources = .ok files) ↔
      ∃ entries, disk.CanRead sources entries :=
    Disk.exists_discover_iff (.of_names hnames hdistinct) harvester.dialect.rules
  refine ⟨endsWith_harvest, fun hnone ending hends => ?_, fun hmany ending hends => ?_,
    fun entries hcan hpermits => ?_⟩
  · cases hends with
    | undiscovered => exact ⟨_, rfl⟩
    | aborted hfiles | completed hfiles => exact absurd (hreads.mp ⟨_, hfiles⟩) hnone
  · cases hends with
    | undiscovered | aborted => exact ⟨_, rfl⟩
    | completed _ hpermits =>
        exact absurd hmany (Nat.not_lt.mpr (permitFault?_eq_none_iff.mp hpermits))
  · obtain ⟨files, hfiles⟩ := hreads.mpr ⟨entries, hcan⟩
    refine ⟨files, hfiles, fun hfails ending hends => ?_, fun hfails => ?_⟩
    · obtain ⟨order, hperm, rfl⟩ := hends.of_discover hfiles hpermits
      obtain ⟨source, hsource, hfailure⟩ := fails_iff.mp hfails
      exact harvestFiles_error_iff.mpr ⟨source, hperm.mem_iff.mpr hsource, hfailure⟩
    · obtain ⟨harvest, hgiven, hany, hrest⟩ := exists_harvest_of_not_fails hnames hfiles hfails
      refine ⟨harvest, (harvest_eq_of_discover hfiles hpermits).trans hgiven, fun ending hends => ?_,
        hrest⟩
      obtain ⟨order, hperm, rfl⟩ := hends.of_discover hfiles hpermits
      exact hany order hperm

/-- The entries of two source files that show one reference. -/
def twoEntries : List (Text × Node) :=
  [("a_test.go", .file (.bytes (Utf8.encode
      "// x-ms-original-file: a/examples/B.json\nfunc A() \x7b\n\x7d\n"))),
    ("b_test.go", .file (.bytes (Utf8.encode
      "// x-ms-original-file: a/examples/B.json\nfunc B() \x7b\n\x7d\n")))]

def twoSources : Disk where
  root := .folder [("in", .folder twoEntries)]
  workingFolder := []

def rejectsFirst : Harvester :=
  .of .go { tag := "1", package := "p", version := "1", sdkName := "p" } none
    (.ofForbidden ["func A"] [])

theorem twoEntries_files : ∀ entry ∈ twoEntries, ∃ content, entry.2 = .file content := by
  simp [twoEntries]

theorem twoEntries_hasFileNames : (Node.folder twoEntries).HasFileNames := by
  have hall : ∀ name ∈ twoEntries.map Prod.fst,
      ¬Path.isIdlePart name ∧ name ≠ ".." ∧ '/' ∉ name := by decide
  refine .folder (fun entry hentry => hall entry.1 (List.mem_map_of_mem hentry))
    fun entry hentry => ?_
  obtain ⟨content, hcontent⟩ := twoEntries_files entry hentry
  rw [hcontent]
  exact .file content

theorem twoEntries_hasDistinctNames : (Node.folder twoEntries).HasDistinctNames := by
  refine .folder (by decide) fun entry hentry => ?_
  obtain ⟨content, hcontent⟩ := twoEntries_files entry hentry
  rw [hcontent]
  exact .file content

theorem twoSources_hasFileNames : twoSources.root.HasFileNames :=
  .folder (List.forall_mem_singleton.mpr ⟨by decide, by decide, by decide⟩)
    (List.forall_mem_singleton.mpr twoEntries_hasFileNames)

theorem twoSources_hasDistinctNames : twoSources.root.HasDistinctNames :=
  .folder (List.nodup_singleton _) (List.forall_mem_singleton.mpr twoEntries_hasDistinctNames)

theorem twoSources_canRead : twoSources.CanRead "in" twoEntries := by
  refine .folder rfl fun name inner hentry => ?_
  obtain ⟨content, hcontent⟩ := twoEntries_files _ hentry
  cases hcontent

theorem twoSources_files :
    twoSources.discover rejectsFirst.dialect.rules "in" = .ok ["in/a_test.go", "in/b_test.go"] := by
  have hsamples : Node.samplesIn rejectsFirst.dialect.rules "in" twoEntries =
      (["in/a_test.go", "in/b_test.go"] : List Path) := by decide +kernel
  rw [Disk.discover_eq twoEntries_hasFileNames twoEntries_hasDistinctNames twoSources_canRead,
    hsamples, List.mergeSort_of_pairwise (by decide)]

theorem rejectsFirst_not_fails {files : List Path}
    (hread : ∀ source ∈ files, (disk.readText source).toOption.isSome) :
    ¬rejectsFirst.Fails disk files := by
  rintro ⟨source, hsource, ⟨fault, hfault, -⟩ | ⟨shown, -, -, failure, hfailure⟩⟩
  · have hsome := hread source hsource
    rw [hfault] at hsome
    cases hsome
  · change Oracle.ofForbidden _ [] _ = _ at hfailure
    rw [Oracle.ofForbidden, List.any_nil, if_neg Bool.false_ne_true] at hfailure
    split_ifs at hfailure

/-- Two files that complete the other way round, to which the theorem above applies. The first is
rejected and does not keep the second from having the document. -/
theorem harvest_any_schedule_twoSources :
    twoSources.root.HasFileNames ∧ twoSources.root.HasDistinctNames ∧
      twoSources.CanRead "in" twoEntries ∧
      twoSources.discover rejectsFirst.dialect.rules "in" =
        .ok ["in/a_test.go", "in/b_test.go"] ∧
      CompletesIn 4 ["in/a_test.go", "in/b_test.go"] [] ["in/b_test.go", "in/a_test.go"] ∧
      ∃ harvest offered, rejectsFirst.harvest twoSources "in" = .ok harvest ∧
        rejectsFirst.harvestFiles twoSources ["in/b_test.go", "in/a_test.go"] =
          .ok { harvest with offered } ∧
        harvest.artifacts.map Artifact.source = ["in/b_test.go"] := by
  have horder : CompletesIn 4 ["in/a_test.go", "in/b_test.go"] []
      ["in/b_test.go", "in/a_test.go"] := .of_perm (List.Perm.swap _ _ _) (by decide)
  have hsources : (rejectsFirst.harvestFiles twoSources
      ["in/b_test.go", "in/a_test.go"]).toOption.map (fun harvest =>
        harvest.artifacts.map Artifact.source) = some [("in/b_test.go" : Path)] := by
    decide +kernel
  have hread : ∀ source ∈ (["in/a_test.go", "in/b_test.go"] : List Path),
      (twoSources.readText source).toOption.isSome := by decide +kernel
  obtain ⟨-, -, -, hcan⟩ := @harvest_any_schedule rejectsFirst twoSources "in"
    twoSources_hasFileNames twoSources_hasDistinctNames
  obtain ⟨files, hfiles, -, hgiven⟩ := hcan twoEntries twoSources_canRead (by decide)
  obtain rfl := Except.ok.inj (hfiles.symm.trans twoSources_files)
  obtain ⟨harvest, hok, hany, -⟩ := hgiven (rejectsFirst_not_fails hread)
  obtain ⟨offered, -, hsame⟩ := hany _ (.completed hfiles rfl horder)
  rw [hsame] at hsources
  exact ⟨twoSources_hasFileNames, twoSources_hasDistinctNames, twoSources_canRead, hfiles, horder,
    harvest, offered, hok, hsame, Option.some.inj hsources⟩

/-! ### A folder whose path is too long -/

/-- The entries of an empty folder and of two source files. -/
def deepEntries : List (Text × Node) := ("nnnnnnnnnnnnn", .folder []) :: twoEntries

/-- A disk with these entries in one folder. -/
def deepSources : Disk where
  root := .folder [("in", .folder deepEntries)]
  workingFolder := []

/-- A long path to this folder. It leaves room for the names of the two files, but not for the name of
the empty folder. -/
def longWay : Path := "in" ++ (List.replicate 2040 ("/." : Text)).flatten

theorem deepSources_hasFileNames : deepSources.root.HasFileNames := by
  refine .folder (List.forall_mem_singleton.mpr ⟨by decide, by decide, by decide⟩)
    (List.forall_mem_singleton.mpr ?_)
  cases twoEntries_hasFileNames with
  | folder hnames hnodes =>
      exact .folder (List.forall_mem_cons.mpr ⟨⟨by decide, by decide, by decide⟩, hnames⟩)
        (List.forall_mem_cons.mpr
          ⟨.folder (List.forall_mem_nil _) (List.forall_mem_nil _), hnodes⟩)

theorem deepSources_hasDistinctNames : deepSources.root.HasDistinctNames := by
  refine .folder (List.nodup_singleton _) (List.forall_mem_singleton.mpr ?_)
  cases twoEntries_hasDistinctNames with
  | folder _ hnodes =>
      exact .folder (by decide) (List.forall_mem_cons.mpr
        ⟨.folder List.nodup_nil (List.forall_mem_nil _), hnodes⟩)

theorem deepSources_node : deepSources.node longWay = .ok (.folder deepEntries) := by
  have hfolder : deepSources.folderAt? longWay = some [("in" : Text)] := by decide +kernel
  obtain ⟨hparts, hleads⟩ := Disk.folderAt?_eq_some_iff.mp hfolder
  exact Disk.node_folder_iff.mpr ⟨hparts, ["in"], hleads, rfl⟩

/-- The path of the empty folder has a byte too many. -/
theorem deepSources_not_canRead : ¬∃ entries, deepSources.CanRead longWay entries := by
  rintro ⟨entries, hcan⟩
  obtain ⟨hnode, hbelow⟩ := Disk.canRead_iff.mp hcan
  cases hnode.symm.trans deepSources_node
  have hinner := hbelow "nnnnnnnnnnnnn" [] List.mem_cons_self (by decide)
  have hsize := Disk.size_le_of_parts (Disk.node_folder_iff.mp (Disk.canRead_iff.mp hinner).1).1
  have hlong : Disk.maxPathSize < (Path.join longWay "nnnnnnnnnnnnn").length := by decide +kernel
  exact absurd (hlong.trans_le (Utf8.length_le_size _)) (Nat.not_lt.mpr hsize)

theorem deepSources_read :
    ∀ source ∈ Node.samplesIn rejectsFirst.dialect.rules longWay deepEntries,
      (deepSources.readText source).toOption.isSome := by
  decide +kernel

/-- That every candidate file can be read and the oracle answers is not enough: an empty folder whose
path is too long makes the harvest fail, and so does a number of files at the same time for which
there are not enough permits. -/
theorem harvest_fails_otherwise :
    (¬∀ (harvester : Harvester) (disk : Disk) (sources : Path) (entries : List (Text × Node)),
      disk.root.HasFileNames → disk.root.HasDistinctNames →
      disk.node sources = .ok (.folder entries) → 0 < harvester.concurrency →
      harvester.concurrency ≤ maxPermits →
      ¬harvester.Fails disk (Node.samplesIn harvester.dialect.rules sources entries) →
      ∃ harvest, harvester.EndsWith disk sources (.ok harvest)) ∧
    ¬∀ (harvester : Harvester) (disk : Disk) (sources : Path) (entries : List (Text × Node)),
      disk.root.HasFileNames → disk.root.HasDistinctNames → disk.CanRead sources entries →
      0 < harvester.concurrency →
      ¬harvester.Fails disk (Node.samplesIn harvester.dialect.rules sources entries) →
      ∃ harvest, harvester.EndsWith disk sources (.ok harvest) := by
  constructor
  · intro h
    obtain ⟨harvest, hends⟩ := h rejectsFirst deepSources longWay deepEntries
      deepSources_hasFileNames deepSources_hasDistinctNames deepSources_node (by decide) (by decide)
      (rejectsFirst_not_fails deepSources_read)
    obtain ⟨⟨files, hfiles⟩, -⟩ := hends.of_ok
    obtain ⟨entries, hcan, -⟩ := Disk.canRead_of_discover
      (.of_names deepSources_hasFileNames deepSources_hasDistinctNames) hfiles
    exact deepSources_not_canRead ⟨entries, hcan⟩
  · intro h
    have hread : ∀ source ∈ Node.samplesIn rejectsFirst.dialect.rules "in" twoEntries,
        (twoSources.readText source).toOption.isSome := by decide +kernel
    obtain ⟨harvest, hends⟩ := h { rejectsFirst with concurrency := 2 ^ 61 } twoSources "in" twoEntries
      twoSources_hasFileNames twoSources_hasDistinctNames twoSources_canRead (by decide)
      (rejectsFirst_not_fails hread)
    exact absurd hends.of_ok.2 (by decide)

end Harvester

end SampleHarvest
