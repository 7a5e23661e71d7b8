import SampleHarvest.Proofs.Harvest.Stability

/-!
# Harvests before and after

A harvest gives the same before and after steps that spare the sources, if these can be read on the
later disk and their folder was there on the earlier one. That a file is read later does not say that
it was there earlier, or that the same path led to it. But the discovered files are the same on both
disks, each at the location of its names below the folder of the sources, and the limits that a path
keeps are the same too.
-/

namespace SampleHarvest

/-! ### Names -/

namespace Node

variable {node found : Node} {location : Location}

/-- The names on the way to a node of a tree with proper names are proper names. -/
theorem HasFileNames.isFileName (h : node.HasFileNames) (hget : node.get? location = some found) :
    ∀ name ∈ location, Path.IsFileName name := by
  induction location generalizing node with
  | nil => exact List.forall_mem_nil _
  | cons name location ih =>
      rw [Node.get?] at hget
      obtain ⟨child, hchild, hfound⟩ := Option.bind_eq_some_iff.mp hget
      have hmem := mem_of_child? hchild
      cases h with
      | file | link => cases hmem
      | folder hnames hnodes =>
          exact List.forall_mem_cons.mpr ⟨hnames _ hmem, ih (hnodes _ hmem) hfound⟩

end Node

namespace Path

/-- A path that ends with a name needs no part to be left out in front of another name. -/
theorem baseParts_join {name : Text} (hname : IsFileName name) (base : Path) :
    baseParts (join base name) = baseParts base ++ [name] := by
  have hsplit := splitOn_join_name hname base
  rw [baseParts, hsplit, if_neg]
  intro hend
  have hopen := splitOn_of_open_end hend
  rw [hsplit, List.dropLast_concat] at hopen
  have hempty : name = [] := (List.cons.inj (List.append_cancel_left hopen)).1
  exact hname.1 (hempty ▸ rfl)

end Path

namespace Node

variable {names : List Text}

theorem splitOn_joinNames (base : Path) (hne : names ≠ [])
    (hnames : ∀ name ∈ names, Path.IsFileName name) :
    Text.splitOn '/' (joinNames base names) = Path.baseParts base ++ names := by
  induction names generalizing base with
  | nil => exact absurd rfl hne
  | cons name names ih =>
      obtain ⟨hname, hrest⟩ := List.forall_mem_cons.mp hnames
      rw [joinNames, List.foldl_cons]
      cases names with
      | nil => exact Path.splitOn_join_name hname base
      | cons next names =>
          have hbelow := ih (Path.join base name) (List.cons_ne_nil _ _) hrest
          rw [Path.baseParts_join hname, List.append_assoc] at hbelow
          exact hbelow

theorem isAbsolute_joinNames (base : Path) (hnames : ∀ name ∈ names, Path.IsFileName name) :
    Path.isAbsolute (joinNames base names) = Path.isAbsolute base := by
  induction names generalizing base with
  | nil => rfl
  | cons name names ih =>
      obtain ⟨hname, hrest⟩ := List.forall_mem_cons.mp hnames
      have hsplit := Path.splitOn_eq_singleton hname.2.2
      exact (ih (Path.join base name) hrest).trans
        (Path.isAbsolute_join (Path.not_isAbsolute_of_first hsplit hname.1))

end Node

/-! ### The files that names lead to -/

namespace Disk

variable {disk old new : Disk} {scope : Scope} {base location : Location} {names : List Text}
  {sources path : Path} {rules : DialectRules} {files : List Path} {content : Content}

theorem namesOf_eq_self (hnames : ∀ name ∈ names, Path.IsFileName name) : namesOf names = names :=
  List.filter_eq_self.mpr fun name hname => by simpa using (hnames name hname).1

theorem start_joinNames (disk : Disk) (sources : Path)
    (hnames : ∀ name ∈ names, Path.IsFileName name) :
    disk.start (Node.joinNames sources names) = disk.start sources := by
  rw [start, start, Node.isAbsolute_joinNames sources hnames]

/-- If names lead down to a file, a path that ends with them and is followed at all leads there. -/
theorem eq_of_fileAt?_joinNames
    (hleads : LeadsTo disk.root base maxLinks (disk.start sources) (Path.baseParts sources))
    (hne : names ≠ []) (hnames : ∀ name ∈ names, Path.IsFileName name)
    (hlook : disk.root.look (base ++ names) = .file content)
    (hplace : disk.fileAt? (Node.joinNames sources names) = some location) :
    location = base ++ names ∧ ∀ name ∈ names, IsName name := by
  obtain ⟨-, held, harrives⟩ := fileAt?_eq_some_iff.mp hplace
  have hwalk := harrives.walk
  rw [start_joinNames disk sources hnames, Node.splitOn_joinNames sources hne hnames] at hwalk
  obtain ⟨left, hleft⟩ := hleads.walk_append names
  have hbelow := arrives_of_walk (hleft.symm.trans hwalk)
  have hup : (".." : Text) ∉ names := fun hmem => (hnames _ hmem).2.1 rfl
  have hlinks : ∀ front, front ≠ [] → front <+: namesOf names →
      ∀ target, disk.root.look (base ++ front) ≠ .link target := by
    rintro front - hfront target hlink
    rw [namesOf_eq_self hnames] at hfront
    obtain ⟨back, rfl⟩ := hfront
    rw [← List.append_assoc] at hlook
    by_cases hback : back = []
    · rw [hback, List.append_nil, hlink] at hlook
      cases hlook
    · rw [Node.look_above (by rw [hlook]; nofun) hback] at hlink
      cases hlink
  have hends := hbelow.endsAt hup hleads.look hlinks
  rw [namesOf_eq_self hnames] at hends
  exact ⟨hends.1.present_eq, hends.2⟩

/-- Names that lead down to a file lead there by the path that ends with them. -/
theorem fileAt?_joinNames
    (hleads : LeadsTo disk.root base maxLinks (disk.start sources) (Path.baseParts sources))
    (hnames : ∀ name ∈ names, Path.IsFileName name) (hlimits : ∀ name ∈ names, IsName name)
    (hparts : Disk.parts (Node.joinNames sources names) =
      .ok (Text.splitOn '/' (Node.joinNames sources names)))
    (hlook : disk.root.look (base ++ names) = .file content) :
    disk.fileAt? (Node.joinNames sources names) = some (base ++ names) := by
  rcases List.eq_nil_or_concat names with rfl | ⟨folders, last, rfl⟩
  · rw [List.append_nil, hleads.look] at hlook
    cases hlook
  rw [List.concat_eq_append] at *
  have hne : folders ++ [last] ≠ [] := List.append_ne_nil_of_right_ne_nil _ (List.cons_ne_nil _ _)
  have hself := namesOf_eq_self hnames
  obtain ⟨left, hleft⟩ := hleads.walk_append (folders ++ [last])
  have hfound : walk disk.root true left base (folders ++ [last]) =
      .ok (.present (base ++ (folders ++ [last])) (.file content)) := by
    rw [← hself] at hlimits hlook
    rw [walk_to_file hlimits (hnames last (by simp)).1 hlook, hself]
  refine fileAt?_eq_some_iff.mpr ⟨hparts, content, ?_⟩
  rw [start_joinNames disk sources hnames, Node.splitOn_joinNames sources hne hnames]
  exact arrives_of_walk (hleft.trans hfound)

/-- The file that names lead down to is read by the path that ends with them if the limits are kept. -/
theorem readContent_joinNames_iff {held : Content}
    (hleads : LeadsTo disk.root base maxLinks (disk.start sources) (Path.baseParts sources))
    (hne : names ≠ []) (hnames : ∀ name ∈ names, Path.IsFileName name)
    (hlook : disk.root.look (base ++ names) = .file held) :
    disk.readContent (Node.joinNames sources names) = .ok content ↔
      Disk.parts (Node.joinNames sources names) =
          .ok (Text.splitOn '/' (Node.joinNames sources names)) ∧
        (∀ name ∈ names, IsName name) ∧ content = held := by
  constructor
  · intro hread
    obtain ⟨location, hplace, hfound⟩ := exists_fileAt? hread
    obtain ⟨rfl, hlimits⟩ := eq_of_fileAt?_joinNames hleads hne hnames hlook hplace
    cases hfound.symm.trans hlook
    exact ⟨(fileAt?_eq_some_iff.mp hplace).1, hlimits, rfl⟩
  · rintro ⟨hparts, hlimits, rfl⟩
    exact readContent_of_fileAt? (fileAt?_joinNames hleads hnames hlimits hparts hlook) hlook

/-- A discovered file stands at the location of its names below the folder of the sources. -/
theorem exists_of_mem_discover (hnames : disk.root.HasFileNames)
    (hdistinct : disk.root.HasDistinctNames) (hfiles : disk.discover rules sources = .ok files)
    (hpath : path ∈ files) :
    ∃ base folders name content,
      LeadsTo disk.root base maxLinks (disk.start sources) (Text.splitOn '/' sources) ∧
        path = Node.joinNames sources (folders ++ [name]) ∧
        (∀ part ∈ folders ++ [name], Path.IsFileName part) ∧
        disk.root.look (base ++ folders ++ [name]) = .file content ∧
        rules.acceptsFileName name ∧ ∀ folder ∈ folders, ¬isSkippedFolder folder := by
  obtain ⟨entries, hcan, -⟩ := canRead_of_discover (.of_names hnames hdistinct) hfiles
  obtain ⟨-, base, hleads, hbase⟩ := node_folder_iff.mp (canRead_iff.mp hcan).1
  rw [discover_eq (hnames.get? hbase) (hdistinct.get? hbase) hcan] at hfiles
  cases hfiles
  have hmem := (List.mergeSort_perm _ _).mem_iff.mp hpath
  obtain ⟨folders, name, hcandidate, rfl⟩ := (Node.mem_samplesIn_iff (hdistinct.get? hbase)).mp hmem
  obtain ⟨content, hcontent⟩ := hcandidate.is_file
  refine ⟨base, folders, name, content, hleads, rfl, ?_, ?_, hcandidate.accepted,
    hcandidate.searched⟩
  · exact (hnames.get? hbase).isFileName (Node.look_eq_file_iff.mp hcontent)
  · rw [List.append_assoc, Node.look_append hbase, hcontent]

/-- Steps that spare the sources neither write nor drop a discovered file, so it holds the same after
them, and where its path can be followed on one of the two disks it is read on both. -/
theorem Changes.readContent_iff (h : Changes scope old new) (hnames : old.root.HasFileNames)
    (hdistinct : old.root.HasDistinctNames)
    (hspares : ∀ base, LeadsTo old.root base maxLinks (old.start sources)
      (Text.splitOn '/' sources) → scope.Spares rules base)
    (hfiles : old.discover rules sources = .ok files) (hpath : path ∈ files) :
    new.readContent path = .ok content ↔ old.readContent path = .ok content := by
  obtain ⟨base, folders, name, held, hleads, rfl, hproper, hlook, haccepted, hsearched⟩ :=
    exists_of_mem_discover hnames hdistinct hfiles hpath
  have hdrops : ¬scope.drops (base ++ folders ++ [name]) := fun hdropped =>
    (hspares base hleads).drops _ name hdropped (List.prefix_append base folders)
  have hwrites : ¬scope.writes (base ++ folders ++ [name]) := by
    intro hwritten
    obtain ⟨folder, hmem, hskipped⟩ := (hspares base hleads).writes folders name hwritten haccepted
    exact hsearched folder hmem hskipped
  have hlook' := h.look_file hwrites hdrops hlook
  rw [List.append_assoc] at hlook hlook'
  have hleads' : LeadsTo new.root base maxLinks (new.start sources) (Path.baseParts sources) := by
    rw [h.start_eq]
    exact hleads.baseParts.keeps h.keeps
  rw [readContent_joinNames_iff hleads' (by simp) hproper hlook',
    readContent_joinNames_iff hleads.baseParts (by simp) hproper hlook]

end Disk

namespace Harvester

variable {harvester : Harvester} {old new : Disk} {scope : Disk.Scope} {sources : Path}
  {harvest : Harvest} {files : List Path}

/-- Discovered files give the same before and after steps that spare the sources. -/
theorem harvestFiles_spared (h : Disk.Changes scope old new) (hnames : old.root.HasFileNames)
    (hdistinct : old.root.HasDistinctNames)
    (hspares : ∀ base, Disk.LeadsTo old.root base Disk.maxLinks (old.start sources)
      (Text.splitOn '/' sources) → scope.Spares harvester.dialect.rules base)
    (hfiles : old.discover harvester.dialect.rules sources = .ok files) :
    harvester.harvestFiles new files = .ok harvest ↔
      harvester.harvestFiles old files = .ok harvest := by
  have hsame : ∀ source ∈ files, ∀ content,
      new.readContent source = .ok content ↔ old.readContent source = .ok content :=
    fun source hsource content => h.readContent_iff hnames hdistinct hspares hfiles hsource
  constructor
  · intro hgiven
    rw [← hgiven]
    refine (harvestFiles_eq fun source hsource => ?_).symm
    obtain ⟨content, hread⟩ := exists_content_of_harvestFiles hgiven source hsource
    rw [hread, (hsame source hsource content).mp hread]
  · intro hgiven
    rw [← hgiven]
    refine harvestFiles_eq fun source hsource => ?_
    obtain ⟨content, hread⟩ := exists_content_of_harvestFiles hgiven source hsource
    rw [hread, (hsame source hsource content).mpr hread]

/-- **A harvest stays the same.** Steps that spare the sources leave a harvest as it is while the
sources can be read. -/
theorem harvest_after (h : Disk.Changes scope old new) (hnames : old.root.HasFileNames)
    (hdistinct : old.root.HasDistinctNames)
    (hspares : ∀ base, Disk.LeadsTo old.root base Disk.maxLinks (old.start sources)
      (Text.splitOn '/' sources) → scope.Spares harvester.dialect.rules base)
    (hread : ∃ entries, new.CanRead sources entries)
    (hharvest : harvester.harvest old sources = .ok harvest) :
    harvester.harvest new sources = .ok harvest := by
  obtain ⟨files, hfiles, hpermits, hgiven⟩ := harvest_ok_iff.mp hharvest
  exact harvest_ok_iff.mpr ⟨files, h.discover hnames hdistinct hspares hread hfiles, hpermits,
    (harvestFiles_spared h hnames hdistinct hspares hfiles).mpr hgiven⟩

/-- **A harvest that succeeds later would have succeeded before.** Steps that spare the sources do
not make a harvest possible, if only the folder of the sources was there before them. -/
theorem harvest_before (h : Disk.Changes scope old new) (hnames : old.root.HasFileNames)
    (hdistinct : old.root.HasDistinctNames) (hfolder : old.hasFolder sources)
    (hspares : ∀ base, Disk.LeadsTo old.root base Disk.maxLinks (old.start sources)
      (Text.splitOn '/' sources) → scope.Spares harvester.dialect.rules base)
    (hharvest : harvester.harvest new sources = .ok harvest) :
    harvester.harvest old sources = .ok harvest := by
  have hsearchable := Node.IsSearchable.of_names hnames hdistinct
  obtain ⟨later, hlater, hpermits, hgiven⟩ := harvest_ok_iff.mp hharvest
  obtain ⟨entries, hcan, -⟩ := Disk.canRead_of_discover (h.isSearchable hsearchable) hlater
  have hbefore := h.canRead_before hsearchable hfolder ⟨entries, hcan⟩
  obtain ⟨files, hfiles⟩ := (Disk.exists_discover_iff hsearchable harvester.dialect.rules).mpr hbefore
  have hsame := h.discover hnames hdistinct hspares ⟨entries, hcan⟩ hfiles
  obtain rfl := Except.ok.inj (hlater.symm.trans hsame)
  exact harvest_ok_iff.mpr ⟨later, hfiles, hpermits,
    (harvestFiles_spared h hnames hdistinct hspares hfiles).mp hgiven⟩

end Harvester

end SampleHarvest
