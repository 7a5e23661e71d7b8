import SampleHarvest.Proofs.Disk.Repetition
import SampleHarvest.Proofs.Harvest.Artifacts
import SampleHarvest.Proofs.Harvest.Descent

/-!
# Sources that stay

Steps spare the sources if they drop no file there and write none that would be discovered. The same
files are discovered after them, whatever else is written and wherever folders are made, provided that
the sources can still be read. A new folder in the sources may have a path that is too long, and then
discovery fails.
-/

namespace SampleHarvest

/-! ### Trees that can be searched -/

namespace Node

variable {node new : Node} {location : Location} {name : Text} {rules : DialectRules}
  {entries : List (Text × Node)}

theorem mem_of_mem_setEntry {entry : Text × Node} (h : entry ∈ setEntry name new entries) :
    entry = (name, new) ∨ entry ∈ entries := by
  induction entries with
  | nil => exact Or.inl (List.mem_singleton.mp h)
  | cons first entries ih =>
      obtain ⟨other, node⟩ := first
      rw [setEntry] at h
      split_ifs at h
      all_goals rcases List.mem_cons.mp h with rfl | h
      · exact Or.inl rfl
      · exact Or.inr (List.mem_cons_of_mem _ h)
      · exact Or.inr List.mem_cons_self
      · exact (ih h).imp_right (List.mem_cons_of_mem _)

theorem nodup_setEntry (h : (entries.map Prod.fst).Nodup) (name : Text) (new : Node) :
    ((setEntry name new entries).map Prod.fst).Nodup := by
  induction entries with
  | nil => exact List.nodup_singleton _
  | cons first entries ih =>
      obtain ⟨other, node⟩ := first
      obtain ⟨hnot, hrest⟩ := List.nodup_cons.mp h
      rw [setEntry]
      split_ifs with hother
      · exact List.nodup_cons.mpr ⟨hother ▸ hnot, hrest⟩
      · refine List.nodup_cons.mpr ⟨fun hmem => ?_, ih hrest⟩
        obtain ⟨entry, hentry, hsame⟩ := List.mem_map.mp hmem
        rcases mem_of_mem_setEntry hentry with rfl | hentry
        · exact hother hsame.symm
        · exact hnot (List.mem_map.mpr ⟨entry, hentry, hsame⟩)

theorem IsSearchable.setEntry (h : (Node.folder entries).IsSearchable) (hnew : new.IsSearchable)
    (hname : new.isFolder → Path.IsFileName name) :
    (Node.folder (Node.setEntry name new entries)).IsSearchable := by
  cases h with
  | folder hdistinct hnames hnodes =>
      refine .folder (nodup_setEntry hdistinct name new) (fun other inner hentry => ?_)
        fun entry hentry => ?_
      · rcases mem_of_mem_setEntry hentry with hsame | hentry
        · cases hsame
          exact hname rfl
        · exact hnames other inner hentry
      · rcases mem_of_mem_setEntry hentry with rfl | hentry
        · exact hnew
        · exact hnodes entry hentry

theorem IsSearchable.dropEntry (h : (Node.folder entries).IsSearchable) (name : Text) :
    (Node.folder (Node.dropEntry name entries)).IsSearchable := by
  cases h with
  | folder hdistinct hnames hnodes =>
      have hsub : List.Sublist (Node.dropEntry name entries) entries := List.filter_sublist
      exact .folder (hdistinct.sublist (hsub.map Prod.fst))
        (fun other inner hentry => hnames other inner (hsub.subset hentry))
        fun entry hentry => hnodes entry (hsub.subset hentry)

theorem IsSearchable.modifyFolder {change : List (Text × Node) → List (Text × Node)}
    (hchange : ∀ entries, (Node.folder entries).IsSearchable →
      (Node.folder (change entries)).IsSearchable)
    (h : node.IsSearchable) (location : Location) :
    (node.modifyFolder change location).IsSearchable := by
  induction location generalizing node with
  | nil =>
      cases node with
      | file | link => exact h
      | folder entries => exact hchange entries h
  | cons name location ih =>
      cases node with
      | file | link => exact h
      | folder entries =>
          rw [Node.modifyFolder]
          cases hchild : child? name entries with
          | none => exact h
          | some child =>
              have hmem := mem_of_child? hchild
              have hsearchable := h
              cases hsearchable with
              | folder _ hnames hnodes =>
                  refine h.setEntry (ih (hnodes _ hmem)) fun hfolder => ?_
                  rw [isFolder_modifyFolder] at hfolder
                  obtain ⟨inner, rfl⟩ := isFolder_iff.mp hfolder
                  exact hnames name inner hmem

/-! ### Discovery in a tree -/

/-- The candidate files are the same if what is put under a name has those of what stood there. -/
theorem samplesIn_setEntry
    (hsame : ∀ path, samplesAt rules path name new =
      (child? name entries).elim [] (samplesAt rules path name)) (path : Path) :
    samplesIn rules path (setEntry name new entries) = samplesIn rules path entries := by
  induction entries with
  | nil => simp [setEntry, samplesIn, hsame, child?]
  | cons entry entries ih =>
      obtain ⟨other, node⟩ := entry
      rw [setEntry]
      rw [child?] at hsame
      split_ifs at hsame ⊢ with hother
      · subst hother
        rw [samplesIn, samplesIn, hsame, Option.elim_some]
      · rw [samplesIn, samplesIn, ih hsame]

theorem samplesAt_folder (h : node.isFolder) (path : Path) (name : Text) :
    samplesAt rules path name node =
      if isSkippedFolder name then [] else samplesIn rules path node.entries := by
  cases node with
  | file content => cases h
  | link target => cases h
  | folder entries => rw [samplesAt]; rfl

/-- The candidate files of a tree are the same if a node is put in a folder that is left out, or if
it has those of what stood in its place. -/
theorem samplesIn_put
    (h : (∃ folder ∈ location, isSkippedFolder folder) ∨
      ∀ path, samplesAt rules path name new =
        (node.get? (location ++ [name])).elim [] (samplesAt rules path name)) (path : Path) :
    samplesIn rules path (node.put location name new).entries =
      samplesIn rules path node.entries := by
  rw [put]
  induction location generalizing node path with
  | nil =>
      cases node with
      | file content => rfl
      | link target => rfl
      | folder entries =>
          have hsame := h.resolve_left (by simp)
          refine samplesIn_setEntry (fun path => (hsame path).trans ?_) path
          rw [List.nil_append, get?, Node.entries]
          cases child? name entries <;> rfl
  | cons first location ih =>
      cases node with
      | file content => rfl
      | link target => rfl
      | folder entries =>
          rw [modifyFolder]
          cases hchild : child? first entries with
          | none => rfl
          | some child =>
              refine samplesIn_setEntry (fun path => ?_) path
              rw [hchild, Option.elim_some]
              cases hfolder : child.isFolder with
              | true =>
                  have hmade := (isFolder_modifyFolder child (setEntry name new) location).trans hfolder
                  rw [samplesAt_folder hfolder, samplesAt_folder hmade]
                  split_ifs with hskipped
                  · rfl
                  · refine ih ?_ path
                    rcases h with ⟨folder, hmem, hleftOut⟩ | hsame
                    · refine Or.inl ⟨folder, (List.mem_cons.mp hmem).resolve_left ?_, hleftOut⟩
                      rintro rfl
                      exact hskipped hleftOut
                    · rw [List.cons_append, get?, Node.entries, hchild] at hsame
                      exact Or.inr hsame
              | false =>
                  have hkept : child.modifyFolder (setEntry name new) location = child := by
                    cases child with
                    | folder inner => cases hfolder
                    | file content | link target => cases location <;> rfl
                  rw [hkept]

end Node

namespace Disk

variable {old new disk : Disk} {scope : Scope} {base folder location : Location} {name : Text}
  {entries : List (Text × Node)} {sources path : Path} {rules : DialectRules} {files : List Path}

theorem get?_modifyFolder_outside {root : Node}
    {change : List (Text × Node) → List (Text × Node)} (hbase : root.look base = .folder)
    (hin : ¬base <+: folder) (hnot : root.look (folder ++ [name]) ≠ .folder)
    (hchange : ∀ other, other ≠ name → ∀ entries,
      Node.child? other (change entries) = Node.child? other entries) :
    (root.modifyFolder change folder).get? base = root.get? base := by
  refine Node.get?_modifyFolder hin fun first rest hrest => hchange first ?_
  rintro rfl
  rw [hrest, List.append_cons] at hbase
  by_cases hend : rest = []
  · rw [hend, List.append_nil] at hbase
    exact hnot hbase
  · exact hnot (Node.look_above (by rw [hbase]; nofun) hend)

theorem get?_put_outside {root new : Node} (hbase : root.look base = .folder)
    (hin : ¬base <+: folder) (hnot : root.look (folder ++ [name]) ≠ .folder) :
    (root.put folder name new).get? base = root.get? base :=
  get?_modifyFolder_outside hbase hin hnot fun other hother others => by
    rw [Node.child?_setEntry, if_neg hother]

theorem get?_drop_outside (hbase : disk.root.look base = .folder) (hin : ¬base <+: folder) :
    (disk.drop folder name).root.get? base = disk.root.get? base := by
  rw [drop]
  split
  · next content hfile =>
      refine get?_modifyFolder_outside hbase hin ?_ fun other hother others => by
        rw [Node.child?_dropEntry, if_neg hother]
      intro hfolder
      cases (Node.look_eq_file_iff.mpr hfile).symm.trans hfolder
  · rfl

/-- Steps of this scope drop nothing in a folder and write no file there that would be a candidate:
its name is not accepted, or it stands in a folder that is left out. -/
structure Scope.Spares (scope : Scope) (rules : DialectRules) (base : Location) : Prop where
  writes : ∀ folders name, scope.writes (base ++ folders ++ [name]) → rules.acceptsFileName name →
    ∃ folder ∈ folders, isSkippedFolder folder
  drops : ∀ folder name, scope.drops (folder ++ [name]) → ¬base <+: folder

/-- What is put below a folder leaves its candidate files as they are under the condition above. -/
theorem samplesIn_put_below {root : Node} (hbase : root.get? base = some (.folder entries))
    {below : Location} {new : Node}
    (h : (∃ folder ∈ below, isSkippedFolder folder) ∨
      ∀ path, Node.samplesAt rules path name new =
        (root.get? (base ++ below ++ [name])).elim [] (Node.samplesAt rules path name)) :
    ∃ entries', (root.put (base ++ below) name new).get? base = some (.folder entries') ∧
      ∀ path, Node.samplesIn rules path entries' = Node.samplesIn rules path entries := by
  have hmade : (root.put (base ++ below) name new).get? base =
      some ((Node.folder entries).put below name new) := Node.get?_modifyFolder_below hbase
  obtain ⟨entries', hentries⟩ : ∃ entries',
      (Node.folder entries).put below name new = .folder entries' :=
    Node.isFolder_iff.mp (Node.isFolder_modifyFolder _ _ _)
  rw [List.append_assoc, Node.get?_append, hbase, Option.bind_some] at h
  have hsame : ∀ path, Node.samplesIn rules path _ = _ := Node.samplesIn_put h
  rw [hentries] at hmade hsame
  exact ⟨entries', hmade, hsame⟩

/-- A step that spares a folder leaves the same candidate files in it. -/
theorem Change.samplesIn (h : Change scope old new)
    (hbase : old.root.get? base = some (.folder entries)) (hspares : scope.Spares rules base) :
    ∃ entries', new.root.get? base = some (.folder entries') ∧
      ∀ path, Node.samplesIn rules path entries' = Node.samplesIn rules path entries := by
  have hlook : old.root.look base = .folder := Node.look_eq_folder_iff.mpr ⟨entries, hbase⟩
  cases h with
  | @make folder name hplace _ hfolder hold =>
      by_cases hin : base <+: folder
      · obtain ⟨below, rfl⟩ := hin
        refine samplesIn_put_below hbase (Or.inr fun path => ?_)
        rw [Node.look_eq_nothing_iff.mp hold, Node.samplesAt_folder rfl]
        exact ite_self _
      · exact ⟨entries, (get?_put_outside hlook hin (by rw [hold]; nofun)).trans hbase, fun _ => rfl⟩
  | @write folder name content hplace hfolder hold =>
      by_cases hin : base <+: folder
      · obtain ⟨below, rfl⟩ := hin
        apply samplesIn_put_below hbase
        by_cases haccepted : rules.acceptsFileName name
        · exact Or.inl (hspares.writes below name hplace haccepted)
        · have hnone : ∀ path content, Node.samplesAt rules path name (.file content) = [] :=
            fun path content => if_neg haccepted
          refine Or.inr fun path => ?_
          rcases hold with hnothing | ⟨content, hfile⟩
          · rw [hnone, Node.look_eq_nothing_iff.mp hnothing, Option.elim_none]
          · rw [hnone, Node.look_eq_file_iff.mp hfile, Option.elim_some, hnone]
      · exact ⟨entries, (get?_put_outside hlook hin (not_folder_of_file hold)).trans hbase,
          fun _ => rfl⟩
  | @drop folder name hplace =>
      exact ⟨entries, (get?_drop_outside hlook (hspares.drops folder name hplace)).trans hbase,
        fun _ => rfl⟩

theorem Changes.samplesIn (h : Changes scope old new)
    (hbase : old.root.get? base = some (.folder entries)) (hspares : scope.Spares rules base) :
    ∃ entries', new.root.get? base = some (.folder entries') ∧
      ∀ path, Node.samplesIn rules path entries' = Node.samplesIn rules path entries := by
  induction h with
  | refl => exact ⟨entries, hbase, fun _ => rfl⟩
  | tail _ hstep ih =>
      obtain ⟨between, hbetween, hsame⟩ := ih
      obtain ⟨entries', hentries, hlast⟩ := hstep.samplesIn hbetween hspares
      exact ⟨entries', hentries, fun path => (hlast path).trans (hsame path)⟩

/-! ### Sources -/

/-- A location is in the folder that a path leads to, or is this folder. -/
def IsBelow (disk : Disk) (path : Path) (location : Location) : Prop :=
  ∃ base, LeadsTo disk.root base maxLinks (disk.start path) (Text.splitOn '/' path) ∧
    base <+: location

theorem IsBelow.changes (h : Changes scope old new) (hbelow : old.IsBelow path location) :
    new.IsBelow path location := by
  obtain ⟨base, hleads, hin⟩ := hbelow
  refine ⟨base, ?_, hin⟩
  rw [h.start_eq]
  exact hleads.keeps h.keeps

/-- A file at this location would be a candidate in the folder of the sources. -/
structure IsCandidatePlace (disk : Disk) (rules : DialectRules) (sources : Path)
    (base folders : Location) (name : Text) : Prop where
  leads : LeadsTo disk.root base maxLinks (disk.start sources) (Text.splitOn '/' sources)
  accepted : rules.acceptsFileName name
  searched : ∀ folder ∈ folders, ¬isSkippedFolder folder

theorem IsCandidatePlace.changes {folders : Location} (h : Changes scope old new)
    (hplace : old.IsCandidatePlace rules sources base folders name) :
    new.IsCandidatePlace rules sources base folders name := by
  obtain ⟨hleads, haccepted, hsearched⟩ := hplace
  refine ⟨?_, haccepted, hsearched⟩
  rw [h.start_eq]
  exact hleads.keeps h.keeps

theorem Change.isSearchable (h : Change scope old new) (hsearchable : old.root.IsSearchable) :
    new.root.IsSearchable := by
  cases h with
  | @make folder name _ hname =>
      have hempty : (Node.folder []).IsSearchable :=
        .folder List.nodup_nil (fun _ _ => nofun) (List.forall_mem_nil _)
      exact .modifyFolder (fun entries hentries => hentries.setEntry hempty fun _ => hname)
        hsearchable folder
  | @write folder name content =>
      exact .modifyFolder (fun entries hentries => hentries.setEntry (.file content) nofun)
        hsearchable folder
  | @drop folder name =>
      rw [Disk.drop]
      split
      · exact .modifyFolder (fun entries hentries => hentries.dropEntry name) hsearchable folder
      · exact hsearchable

theorem Changes.isSearchable (h : Changes scope old new) (hsearchable : old.root.IsSearchable) :
    new.root.IsSearchable := by
  induction h with
  | refl => exact hsearchable
  | tail _ hstep ih => exact hstep.isSearchable ih

/-- Steps that spare the sources leave the discovered files as they are while the sources can be
read. -/
theorem Changes.discover (h : Changes scope old new) (hnames : old.root.HasFileNames)
    (hdistinct : old.root.HasDistinctNames)
    (hspares : ∀ base, LeadsTo old.root base maxLinks (old.start sources)
      (Text.splitOn '/' sources) → scope.Spares rules base)
    (hread : ∃ entries, new.CanRead sources entries)
    (hfiles : old.discover rules sources = .ok files) : new.discover rules sources = .ok files := by
  have hsearchable := Node.IsSearchable.of_names hnames hdistinct
  obtain ⟨entries, hcan, -⟩ := canRead_of_discover hsearchable hfiles
  obtain ⟨-, base, hleads, hbase⟩ := node_folder_iff.mp (canRead_iff.mp hcan).1
  rw [discover_eq (hnames.get? hbase) (hdistinct.get? hbase) hcan] at hfiles
  obtain ⟨entries', hbase', hsame⟩ := h.samplesIn hbase (hspares base hleads)
  obtain ⟨there, hthere⟩ := hread
  obtain ⟨-, base', hleads', hget'⟩ := node_folder_iff.mp (canRead_iff.mp hthere).1
  rw [h.start_eq] at hleads'
  obtain rfl := (hleads.keeps h.keeps).unique hleads'
  cases hget'.symm.trans hbase'
  obtain ⟨found, hperm, hfound⟩ :=
    discover_of_canRead ((h.isSearchable hsearchable).get? hbase') hthere rules
  rw [hsame] at hperm
  rw [hfound, ← hfiles, Path.mergeSort_eq_of_perm hperm fun _ ha _ hb =>
    Node.samplesIn_eq_of_components (hnames.get? hbase) ha hb]

/-- Sources that are there before some steps, and can be read after them, can be read before. -/
theorem Changes.canRead_before (h : Changes scope old new) (hsearchable : old.root.IsSearchable)
    (hfolder : old.hasFolder sources) (hread : ∃ entries, new.CanRead sources entries) :
    ∃ entries, old.CanRead sources entries := by
  obtain ⟨hparts, base, hleads⟩ := hasFolder_iff.mp hfolder
  obtain ⟨entries, hbase⟩ := Node.look_eq_folder_iff.mp hleads.look
  obtain ⟨there, hthere⟩ := hread
  obtain ⟨-, base', hleads', hbase'⟩ := node_folder_iff.mp (canRead_iff.mp hthere).1
  rw [h.start_eq] at hleads'
  obtain rfl := (hleads.keeps h.keeps).unique hleads'
  refine ⟨entries, hthere.of_folders (node_folder_iff.mpr ⟨hparts, base, hleads, hbase⟩)
    (hsearchable.get? hbase) fun location hlook => ?_⟩
  rw [← Node.look_append hbase] at hlook
  rw [← Node.look_append hbase']
  exact (h.keeps _).1 hlook

/-! ### Reading -/

theorem exists_fileAt? {content : Content} (h : disk.readContent path = .ok content) :
    ∃ location, disk.fileAt? path = some location ∧
      disk.root.look location = .file content := by
  rw [readContent, node] at h
  cases hlocate : disk.locate true path with
  | error fault =>
      rw [hlocate] at h
      cases h
  | ok place =>
      cases place with
      | vacant folder name =>
          rw [hlocate] at h
          cases h
      | present location found =>
          rw [hlocate] at h
          cases found with
          | folder entries | link target => cases h
          | file held =>
              cases h
              have hfile : disk.fileAt? path = some location := by
                rw [fileAt?, hlocate]
              refine ⟨location, hfile, ?_⟩
              obtain ⟨hparts, -⟩ := fileAt?_eq_some_iff.mp hfile
              rw [locate, hparts] at hlocate
              exact Node.look_eq_file_iff.mpr (arrives_of_walk hlocate).get?

theorem node_ne_notText (disk : Disk) (path : Path) : disk.node path ≠ .error .notText := by
  intro h
  rw [node, locate] at h
  cases hparts : Disk.parts path with
  | error fault =>
      rw [hparts] at h
      rw [Disk.parts] at hparts
      split_ifs at hparts <;> cases hparts <;> cases h
  | ok parts =>
      rw [hparts] at h
      simp only [bind, Except.bind] at h
      cases hwalk : walk disk.root true maxLinks (disk.start path) parts with
      | error fault =>
          rw [hwalk] at h
          cases h
          exact walk_ne_notText disk.root true maxLinks (disk.start path) parts hwalk
      | ok place =>
          rw [hwalk] at h
          cases place <;> cases h

theorem readContent_ne_notText (disk : Disk) (path : Path) :
    disk.readContent path ≠ .error .notText := by
  intro h
  rw [readContent] at h
  cases hnode : disk.node path with
  | error fault =>
      rw [hnode] at h
      cases h
      exact node_ne_notText disk path hnode
  | ok node =>
      rw [hnode] at h
      cases node <;> cases h

/-- A file that is neither written over nor dropped is read as before. -/
theorem Changes.readContent {content : Content} (h : Changes scope old new)
    (hread : old.readContent path = .ok content)
    (hstays : ∀ location, old.fileAt? path = some location →
      ¬scope.writes location ∧ ¬scope.drops location) : new.readContent path = .ok content := by
  obtain ⟨location, hfile, hlook⟩ := exists_fileAt? hread
  obtain ⟨hwrites, hdrops⟩ := hstays location hfile
  exact readContent_of_fileAt? (h.fileAt? hdrops hfile) (h.look_file hwrites hdrops hlook)

end Disk

/-! ### Harvests -/

namespace Harvester

variable {harvester : Harvester} {old new : Disk} {scope : Disk.Scope} {sources source : Path}
  {harvest : Harvest}

/-- A file that is harvested holds something, be it text or not. -/
theorem exists_content {outcome : FileHarvest} (h : harvester.harvestFile old source = .ok outcome) :
    ∃ content, old.readContent source = .ok content := by
  rw [harvestFile, Disk.readText] at h
  cases hread : old.readContent source with
  | ok content => exact ⟨content, rfl⟩
  | error fault =>
      rw [hread] at h
      have hnot := old.readContent_ne_notText source
      rw [hread] at hnot
      cases fault <;> first
        | exact absurd rfl hnot
        | cases h

/-- A file that is read as before gives what it gave. -/
theorem harvestFile_eq (h : new.readContent source = old.readContent source) :
    harvester.harvestFile new source = harvester.harvestFile old source := by
  rw [harvestFile, harvestFile, Disk.readText, Disk.readText, h]

/-- Files that are read as before give what they gave. -/
theorem harvestFiles_eq {files : List Path}
    (h : ∀ source ∈ files, new.readContent source = old.readContent source) :
    harvester.harvestFiles new files = harvester.harvestFiles old files := by
  have hmap : files.mapM (harvester.harvestFile new) = files.mapM (harvester.harvestFile old) := by
    induction files with
    | nil => rfl
    | cons source files ih =>
        obtain ⟨hsource, hrest⟩ := List.forall_mem_cons.mp h
        rw [List.mapM_cons, List.mapM_cons, harvestFile_eq hsource, ih hrest]
  rw [harvestFiles, harvestFiles, hmap]

theorem exists_content_of_harvestFiles {files : List Path}
    (h : harvester.harvestFiles old files = .ok harvest) :
    ∀ source ∈ files, ∃ content, old.readContent source = .ok content := by
  intro source hsource
  have hgoes : ¬∃ failure, harvester.harvestFile old source = .error failure := by
    intro hfails
    obtain ⟨failure, hfailure⟩ := harvestFiles_error_iff.mpr ⟨source, hsource, hfails⟩
    rw [hfailure] at h
    cases h
  exact exists_content (harvestFile_given hgoes)

end Harvester

end SampleHarvest
