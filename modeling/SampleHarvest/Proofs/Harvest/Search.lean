import SampleHarvest.Proofs.Harvest.Descent

/-!
# The search for candidate files

A search has folders that are still to be read. It reads any of them, with the entries in whatever
order they come, takes the candidate files among them and keeps the folders for later. Links are
passed over, and so are the folders that are left out.

At every point the files found and those below the pending folders are together the files of the
whole tree, and the folders read and those that are pending or below are its folders. So no search
reads a folder twice, every search comes to an end, and what it has found is then what discovery
gives, however it went.
-/

namespace SampleHarvest

structure Search where
  pending : List Path
  found : List Path
  deriving DecidableEq, Repr

namespace Search

def note (rules : DialectRules) (folder : Path) (search : Search) (entry : Text × Node) :
    Search where
  pending := search.pending ++ subfolder folder entry
  found := search.found ++ sample rules folder entry

/-- A search begins with the folder of the sources. -/
def start (sources : Path) : Search := ⟨[sources], []⟩

/-- A step reads any of the pending folders, whose entries come in any order. -/
inductive Step (disk : Disk) (rules : DialectRules) (folder : Path) : Search → Search → Prop
  | read {before after found : List Path} {entries listed : List (Text × Node)}
      (hread : disk.node folder = .ok (.folder entries)) (hlisted : listed.Perm entries) :
      Step disk rules folder ⟨before ++ folder :: after, found⟩
        (listed.foldl (note rules folder) ⟨before ++ after, found⟩)

/-- A run of a search reads these folders, one after the other. -/
inductive Run (disk : Disk) (rules : DialectRules) : List Path → Search → Search → Prop
  | done (search : Search) : Run disk rules [] search search
  | step {folder : Path} {folders : List Path} {search next last : Search}
      (hstep : Step disk rules folder search next) (hrest : Run disk rules folders next last) :
      Run disk rules (folder :: folders) search last

end Search

namespace Search

variable {disk : Disk} {rules : DialectRules} {folder sources : Path}
  {entries listed : List (Text × Node)} {search next last : Search} {read more : List Path}

/-- A pending folder and the folders below it. -/
def foldersFrom (disk : Disk) (path : Path) : List Path :=
  match disk.node path with
  | .ok (.folder entries) => Node.foldersAt path (.folder entries)
  | _ => []

theorem foldersFrom_eq (h : disk.node folder = .ok (.folder entries)) :
    foldersFrom disk folder = Node.foldersAt folder (.folder entries) := by
  rw [foldersFrom, h]

theorem foldl_note (rules : DialectRules) (folder : Path) (listed : List (Text × Node))
    (search : Search) :
    listed.foldl (note rules folder) search =
      ⟨search.pending ++ listed.flatMap (subfolder folder),
        search.found ++ listed.flatMap (sample rules folder)⟩ := by
  induction listed generalizing search with
  | nil => rw [List.foldl_nil, List.flatMap_nil, List.flatMap_nil, List.append_nil, List.append_nil]
  | cons entry listed ih =>
      rw [List.foldl_cons, ih, note, List.flatMap_cons, List.flatMap_cons, List.append_assoc,
        List.append_assoc]

/-- The folders of a folder are itself and those below the folders kept for later. -/
theorem foldersAt_eq (h : disk.CanRead folder entries) :
    Node.foldersAt folder (.folder entries) =
      folder :: (entries.flatMap (subfolder folder)).flatMap (foldersFrom disk) := by
  obtain ⟨-, hbelow⟩ := Disk.canRead_iff.mp h
  have hentries : ∀ entry ∈ entries,
      (if isSkippedFolder entry.1 then [] else
        Node.foldersAt (Path.join folder entry.1) entry.2) =
          (subfolder folder entry).flatMap (foldersFrom disk) := by
    rintro ⟨name, node⟩ hentry
    cases node with
    | file | link => exact ite_self []
    | folder inner =>
        rw [subfolder]
        split_ifs with hskipped
        · rfl
        · obtain ⟨hread, -⟩ := Disk.canRead_iff.mp (hbelow name inner hentry hskipped)
          rw [List.flatMap_singleton, foldersFrom_eq hread]
  rw [Node.foldersAt_folder, List.flatMap_congr hentries, List.flatMap_assoc]

/-- What is true of a search of readable sources after these folders were read. -/
structure IsHalfway (disk : Disk) (rules : DialectRules) (sources : Path)
    (entries : List (Text × Node)) (read : List Path) (search : Search) : Prop where
  folders : (read ++ search.pending.flatMap (foldersFrom disk)).Perm
    (Node.foldersAt sources (.folder entries))
  /-- The files found and those to come are the files of the sources. -/
  samples : (search.found ++ search.pending.flatMap (disk.samplesFrom rules)).Perm
    (Node.samplesIn rules sources entries)
  readable : ∀ path ∈ search.pending, ∃ entries, disk.CanRead path entries

theorem IsHalfway.start (h : disk.CanRead sources entries) :
    IsHalfway disk rules sources entries [] (.start sources) := by
  obtain ⟨hread, -⟩ := Disk.canRead_iff.mp h
  refine ⟨?_, ?_, fun path hpath => ⟨entries, List.mem_singleton.mp hpath ▸ h⟩⟩
  · rw [Search.start, List.flatMap_singleton, foldersFrom_eq hread, List.nil_append]
  · rw [Search.start, List.flatMap_singleton, Disk.samplesFrom_eq hread, List.nil_append]

/-- A step takes one folder to the folders read, and the files among its entries to those found. -/
theorem IsHalfway.step (h : IsHalfway disk rules sources entries read search)
    (hstep : Step disk rules folder search next) :
    IsHalfway disk rules sources entries (read ++ [folder]) next := by
  obtain ⟨hfolders, hsamples, hreadable⟩ := h
  cases hstep with
  | @read before after found inner listed hread hlisted =>
      -- What is read under the path of a pending folder is the folder that can be read by it.
      have hcan : disk.CanRead folder inner := by
        have hmem : folder ∈ before ++ folder :: after :=
          List.mem_append_right _ List.mem_cons_self
        obtain ⟨others, hcan⟩ := hreadable folder hmem
        cases hread.symm.trans (Disk.canRead_iff.mp hcan).1
        exact hcan
      have hkept := hlisted.flatMap_right (subfolder folder)
      rw [foldl_note]
      -- Both lists are counted, since pending folders may have stood anywhere.
      refine ⟨?_, ?_, fun path hpath => ?_⟩
      · have hall := hkept.flatMap_right (foldersFrom disk)
        refine List.Perm.trans (List.perm_iff_count.mpr fun path => ?_) hfolders
        have hcount := hall.count_eq path
        simp only [List.flatMap_append, List.flatMap_cons, List.count_append, foldersFrom_eq hread,
          foldersAt_eq hcan, List.count_cons, List.count_nil, hcount]
        omega
      · have hall := hkept.flatMap_right (disk.samplesFrom rules)
        have hfound := hlisted.flatMap_right (sample rules folder)
        refine List.Perm.trans (List.perm_iff_count.mpr fun path => ?_) hsamples
        have hcount := hall.count_eq path
        have hcount' := hfound.count_eq path
        have hinner := (Disk.samplesIn_perm hcan rules).count_eq path
        simp only [List.count_append] at hinner
        simp only [List.flatMap_append, List.flatMap_cons, List.count_append, Disk.samplesFrom_eq hread,
          hinner, hcount, hcount']
        omega
      · rcases List.mem_append.mp hpath with hpath | hpath
        · apply hreadable path
          rcases List.mem_append.mp hpath with hpath | hpath
          · exact List.mem_append_left _ hpath
          · exact List.mem_append_right _ (List.mem_cons_of_mem _ hpath)
        · obtain ⟨name, last, hentry, hskipped, rfl⟩ :=
            exists_of_mem_subfolder (hkept.mem_iff.mp hpath)
          exact ⟨last, (Disk.canRead_iff.mp hcan).2 name last hentry hskipped⟩

theorem IsHalfway.run (h : IsHalfway disk rules sources entries read search)
    (hrun : Run disk rules more search last) :
    IsHalfway disk rules sources entries (read ++ more) last := by
  induction hrun generalizing read with
  | done =>
      rw [List.append_nil]
      exact h
  | step hstep _ ih =>
      rw [List.append_cons]
      exact ih (h.step hstep)

theorem IsHalfway.exists_step (h : IsHalfway disk rules sources entries read search)
    (hfolder : folder ∈ search.pending) : ∃ next, Step disk rules folder search next := by
  obtain ⟨inner, hcan⟩ := h.readable folder hfolder
  obtain ⟨pending, found⟩ := search
  obtain ⟨before, after, rfl⟩ := List.append_of_mem hfolder
  exact ⟨_, .read (Disk.canRead_iff.mp hcan).1 (List.Perm.refl inner)⟩

/-- Every search can be brought to its end. -/
theorem IsHalfway.exists_run (h : IsHalfway disk rules sources entries read search) :
    ∃ more last, Run disk rules more search last ∧ last.pending = [] := by
  -- The folders to come become fewer with each step.
  induction hleft : (search.pending.flatMap (foldersFrom disk)).length using Nat.strongRecOn
    generalizing read search with
  | ind left ih =>
      cases hpending : search.pending with
      | nil => exact ⟨[], search, .done search, hpending⟩
      | cons folder pending =>
          have hfolder : folder ∈ search.pending := hpending ▸ List.mem_cons_self
          obtain ⟨next, hstep⟩ := h.exists_step hfolder
          have hnext := h.step hstep
          have hlength := hnext.folders.length_eq.trans h.folders.length_eq.symm
          rw [List.length_append, List.length_append, List.length_append, List.length_singleton,
            hleft] at hlength
          obtain ⟨more, last, hrun, hdone⟩ := ih _ (by omega) hnext rfl
          exact ⟨folder :: more, last, .step hstep hrun, hdone⟩

/-! ### What every search gives -/

/-- A search reads no folder twice, and no other ones than those of the sources. -/
theorem IsHalfway.read_once (hnames : (Node.folder entries).HasFileNames)
    (hdistinct : (Node.folder entries).HasDistinctNames)
    (h : IsHalfway disk rules sources entries read search) :
    read.Nodup ∧ read.Subperm (Node.foldersAt sources (.folder entries)) := by
  have hread := List.sublist_append_left read (search.pending.flatMap (foldersFrom disk))
  have hall := h.folders.nodup_iff.mpr (Node.foldersAt_nodup hnames hdistinct)
  exact ⟨hall.sublist hread, hread.subperm.trans h.folders.subperm⟩

theorem IsHalfway.found_eq (hnames : (Node.folder entries).HasFileNames)
    (h : IsHalfway disk rules sources entries read search) (hdone : search.pending = []) :
    search.found.mergeSort Path.le = (Node.samplesIn rules sources entries).mergeSort Path.le := by
  have hsamples := h.samples
  rw [hdone, List.flatMap_nil, List.append_nil] at hsamples
  apply Path.mergeSort_eq_of_perm hsamples
  exact fun a ha b hb => Node.samplesIn_eq_of_components hnames ha hb

/-! ### Searches and discovery -/

/-- What a search that came to its end had still to read can be read. -/
theorem Run.canRead (hsearchable : disk.root.IsSearchable) (h : Run disk rules read search last)
    (hdone : last.pending = []) : ∀ path ∈ search.pending, ∃ entries, disk.CanRead path entries := by
  induction h with
  | done search =>
      rw [hdone]
      exact List.forall_mem_nil _
  | @step folder _ _ _ _ hstep _ ih =>
      have hnext := ih hdone
      cases hstep with
      | @read before after found inner listed hread hlisted =>
          rw [foldl_note] at hnext
          have hkept := fun path hpath => hnext path (List.mem_append_left _ hpath)
          have hbelow := fun path hpath => hnext path
            (List.mem_append_right _ ((hlisted.flatMap_right _).mem_iff.mpr hpath))
          have hfolder : disk.CanRead folder inner := by
            refine .folder hread fun name there hentry hskipped => ?_
            obtain ⟨others, hcan⟩ := hbelow (Path.join folder name)
              (List.mem_flatMap.mpr ⟨_, hentry, by simp [subfolder, hskipped]⟩)
            obtain ⟨-, base, -, hget⟩ := Disk.node_folder_iff.mp hread
            cases hsearchable.get? hget with
            | folder hdistinct hnames _ =>
                obtain ⟨-, -, rfl⟩ := (Disk.node_join_iff hread
                  ((Node.child?_eq_some_iff hdistinct).mpr hentry) (hnames name there hentry)).mp
                    (Disk.canRead_iff.mp hcan).1
                exact hcan
          intro path hpath
          rcases List.mem_append.mp hpath with hpath | hpath
          · exact hkept path (List.mem_append_left _ hpath)
          · rcases List.mem_cons.mp hpath with rfl | hpath
            · exact ⟨inner, hfolder⟩
            · exact hkept path (List.mem_append_right _ hpath)

/-- **Discovery is the search.** Discovery gives the files that any search finds that comes to its
end, and it fails if no search does. -/
theorem discover_ok_iff_run (hnames : disk.root.HasFileNames) (hdistinct : disk.root.HasDistinctNames)
    {files : List Path} : disk.discover rules sources = .ok files ↔
      ∃ read last, Run disk rules read (.start sources) last ∧ last.pending = [] ∧
        last.found.mergeSort Path.le = files := by
  have hsearchable := Node.IsSearchable.of_names hnames hdistinct
  -- Both sides say that the sources can be read, and then they have the same files.
  have hends : ∀ {entries read last}, disk.CanRead sources entries →
      Run disk rules read (.start sources) last → last.pending = [] →
        disk.discover rules sources = .ok (last.found.mergeSort Path.le) := by
    intro entries read last hcan hrun hdone
    obtain ⟨-, base, -, hget⟩ := Disk.node_folder_iff.mp (Disk.canRead_iff.mp hcan).1
    have hhalfway := (IsHalfway.start hcan).run hrun
    rw [hhalfway.found_eq (hnames.get? hget) hdone,
      Disk.discover_eq (hnames.get? hget) (hdistinct.get? hget) hcan]
  constructor
  · intro h
    obtain ⟨entries, hcan, -⟩ := Disk.canRead_of_discover hsearchable h
    obtain ⟨read, last, hrun, hdone⟩ := (@IsHalfway.start disk rules _ _ hcan).exists_run
    exact ⟨read, last, hrun, hdone, Except.ok.inj ((hends hcan hrun hdone).symm.trans h)⟩
  · rintro ⟨read, last, hrun, hdone, rfl⟩
    obtain ⟨entries, hcan⟩ := hrun.canRead hsearchable hdone sources List.mem_cons_self
    exact hends hcan hrun hdone

/-- **Every candidate once.** In sources that can be read, discovery gives the paths of exactly the
files that have an accepted name and only real folders that are not left out on the way to them, each
once and in strictly ascending order; they depend on what stands where and not on the order of
entries. A search that reads pending folders in any order, with their entries in any order, reads no
folder twice and none outside the sources, can always go on and come to an end, and has then found
these files. -/
theorem discover_each_once {disk : Disk} (rules : DialectRules) {sources : Path}
    {entries : List (Text × Node)} (hnames : (Node.folder entries).HasFileNames)
    (hdistinct : (Node.folder entries).HasDistinctNames) (hreadable : disk.CanRead sources entries) :
    ∃ files, disk.discover rules sources = .ok files ∧
      (∀ path, path ∈ files ↔ ∃ folders name,
        (Node.folder entries).IsCandidate rules folders name ∧
          path = Node.joinNames sources (folders ++ [name])) ∧
      files.Nodup ∧ Path.IsAscending files ∧
      (∀ (other : Disk) (entries' : List (Text × Node)),
        other.node sources = .ok (.folder entries') → (Node.folder entries').HasFileNames →
        (Node.folder entries').HasDistinctNames →
        (∀ location, (Node.folder entries').look location = (Node.folder entries).look location) →
        other.discover rules sources = .ok files) ∧
      ∀ read search, Run disk rules read (.start sources) search →
        (read.Nodup ∧ read.Subperm (Node.foldersAt sources (.folder entries))) ∧
        (∀ folder ∈ search.pending, ∃ next, Step disk rules folder search next) ∧
        (∃ more last, Run disk rules more search last ∧ last.pending = []) ∧
        (search.pending = [] → search.found.mergeSort Path.le = files) := by
  have hfiles := Disk.discover_eq hnames hdistinct hreadable rules
  have hascending := Node.isAscending_samples hnames hdistinct rules sources
  refine ⟨_, hfiles, fun path => ?_, hascending.nodup, hascending, ?_, ?_⟩
  · rw [(List.mergeSort_perm _ _).mem_iff]
    exact Node.mem_samplesIn_iff hdistinct
  · intro other entries' hnode' hnames' hdistinct' hsame
    have hperm := Node.samplesIn_perm_of_look hnames hdistinct hnames' hdistinct' hsame rules sources
    have hreadable' := hreadable.of_folders hnode' (.of_names hnames' hdistinct')
      fun location hlook => (hsame location).symm.trans hlook
    rw [Disk.discover_eq hnames' hdistinct' hreadable' rules]
    exact congrArg Except.ok (Path.mergeSort_eq_of_perm hperm fun _ ha _ hb =>
      Node.samplesIn_eq_of_components hnames ha hb)
  · intro read search hrun
    have hhalfway := (IsHalfway.start hreadable).run hrun
    rw [List.nil_append] at hhalfway
    exact ⟨hhalfway.read_once hnames hdistinct, fun folder => hhalfway.exists_step,
      hhalfway.exists_run, hhalfway.found_eq hnames⟩

/-! ### Sources with all kinds of entries -/

def oneTest : Node := .folder [("x_test.go", .file (.bytes []))]

/-- Two folders that are read, three that are left out and two links. -/
def mixedEntries : List (Text × Node) :=
  [("a-b", oneTest), (".git", oneTest), ("a", oneTest), ("node_modules", oneTest),
    ("target", oneTest), ("back", .link "in"), ("l_test.go", .link "in/a/x_test.go")]

def mixedSources : Disk where
  root := .folder [("in", .folder mixedEntries)]
  workingFolder := []

theorem mixedEntries_cases :
    ∀ entry ∈ mixedEntries, entry.2 = oneTest ∨ ∃ target, entry.2 = .link target := by
  simp [mixedEntries]

theorem mixedEntries_hasFileNames : (Node.folder mixedEntries).HasFileNames := by
  have hall : ∀ name ∈ ("x_test.go" : Text) :: mixedEntries.map Prod.fst,
      ¬Path.isIdlePart name ∧ name ≠ ".." ∧ '/' ∉ name := by decide
  obtain ⟨htest, hnames⟩ := List.forall_mem_cons.mp hall
  refine .folder (fun entry hentry => hnames _ (List.mem_map_of_mem hentry)) fun entry hentry => ?_
  rcases mixedEntries_cases entry hentry with heq | ⟨target, heq⟩
  · rw [heq]
    refine .folder (fun entry hentry => ?_) fun entry hentry => ?_
    all_goals obtain rfl := List.mem_singleton.mp hentry
    · exact htest
    · exact .file _
  · rw [heq]
    exact .link target

theorem mixedEntries_hasDistinctNames : (Node.folder mixedEntries).HasDistinctNames := by
  refine .folder (by decide) fun entry hentry => ?_
  rcases mixedEntries_cases entry hentry with heq | ⟨target, heq⟩
  · rw [heq]
    refine .folder (List.nodup_singleton _) fun entry hentry => ?_
    obtain rfl := List.mem_singleton.mp hentry
    exact .file _
  · rw [heq]
    exact .link target

theorem mixedSources_canRead : mixedSources.CanRead "in" mixedEntries := by
  apply Disk.canRead_of_keepsLimits mixedEntries_hasFileNames mixedEntries_hasDistinctNames
  · rfl
  · have hfolders : Node.foldersAt "in" (.folder mixedEntries) =
        (["in", "in/a-b", "in/a"] : List Path) := by decide +kernel
    have hlimits : ∀ folder ∈ (["in", "in/a-b", "in/a"] : List Path),
        '\x00' ∉ folder ∧ Utf8.size folder ≤ Disk.maxPathSize ∧
          ∀ part ∈ Text.splitOn '/' folder, Utf8.size part ≤ Disk.maxNameSize := by
      decide +kernel
    intro folder hfolder
    obtain ⟨hnul, hsize, hnames⟩ := hlimits folder (hfolders ▸ hfolder)
    exact ⟨hnul, hsize, hnames⟩

theorem mixedSources_run :
    Run mixedSources Dialect.go.rules ["in", "in/a", "in/a-b"] (.start "in")
      ⟨[], ["in/a/x_test.go", "in/a-b/x_test.go"]⟩ := by
  have htop : Step mixedSources Dialect.go.rules "in" (.start "in") ⟨["in/a", "in/a-b"], []⟩ := by
    have hnext : mixedEntries.reverse.foldl (note Dialect.go.rules "in") ⟨[], []⟩ =
        ⟨["in/a", "in/a-b"], []⟩ := by decide +kernel
    rw [← hnext]
    exact @Step.read _ _ _ [] [] [] mixedEntries _ rfl mixedEntries.reverse_perm
  have hfirst : Step mixedSources Dialect.go.rules "in/a" ⟨["in/a", "in/a-b"], []⟩
      ⟨["in/a-b"], ["in/a/x_test.go"]⟩ := by
    have hnext : oneTest.entries.foldl (note Dialect.go.rules "in/a") ⟨["in/a-b"], []⟩ =
        ⟨["in/a-b"], ["in/a/x_test.go"]⟩ := by decide +kernel
    rw [← hnext]
    exact @Step.read _ _ _ [] ["in/a-b"] [] oneTest.entries _ rfl (List.Perm.refl _)
  have hsecond : Step mixedSources Dialect.go.rules "in/a-b" ⟨["in/a-b"], ["in/a/x_test.go"]⟩
      ⟨[], ["in/a/x_test.go", "in/a-b/x_test.go"]⟩ := by
    have hnext : oneTest.entries.foldl (note Dialect.go.rules "in/a-b") ⟨[], ["in/a/x_test.go"]⟩ =
        ⟨[], ["in/a/x_test.go", "in/a-b/x_test.go"]⟩ := by decide +kernel
    rw [← hnext]
    exact @Step.read _ _ _ [] [] ["in/a/x_test.go"] oneTest.entries _ rfl (List.Perm.refl _)
  exact .step htop (.step hfirst (.step hsecond (.done _)))

/-- Discovery in these sources: the order of paths is not that of texts, in which a hyphen comes
before a slash. -/
theorem discover_each_once_mixed :
    ((Node.folder mixedEntries).HasFileNames ∧ (Node.folder mixedEntries).HasDistinctNames ∧
      mixedSources.CanRead "in" mixedEntries) ∧
    mixedSources.discover Dialect.go.rules "in" =
      .ok ["in/a/x_test.go", "in/a-b/x_test.go"] := by
  refine ⟨⟨mixedEntries_hasFileNames, mixedEntries_hasDistinctNames, mixedSources_canRead⟩, ?_⟩
  obtain ⟨files, hfiles, -, -, -, -, hsearch⟩ := discover_each_once Dialect.go.rules
    mixedEntries_hasFileNames mixedEntries_hasDistinctNames mixedSources_canRead
  obtain ⟨-, -, -, hfound⟩ := hsearch _ _ mixedSources_run
  rw [hfiles, ← hfound rfl, List.mergeSort_of_pairwise (by decide)]

end Search

end SampleHarvest
