import Mathlib.Data.List.Perm.Basic
import SampleHarvest.Proofs.Harvest.Readable

/-!
# Discovery reads what can be read

Discovery reads every folder by its path. In a tree with proper names this path leads to the folder
itself, unless it is longer than a file system takes. So discovery succeeds in exactly the sources
that can be read, and what it finds are the candidate files of their tree.

The depth of a search bounds nothing that could be read: each name on the way makes the path longer,
and a path of more bytes than a file system takes leads nowhere.
-/

namespace SampleHarvest

/-! ### Trees that can be searched -/

namespace Node

/-- The folders of a tree are known by their names, and these names lead to them. -/
inductive IsSearchable : Node → Prop
  | file (content : Content) : IsSearchable (.file content)
  | link (target : Path) : IsSearchable (.link target)
  | folder {entries : List (Text × Node)} (hdistinct : (entries.map Prod.fst).Nodup)
      (hnames : ∀ name inner, (name, .folder inner) ∈ entries → Path.IsFileName name)
      (hnodes : ∀ entry ∈ entries, IsSearchable entry.2) : IsSearchable (.folder entries)

variable {node found : Node} {location : Location}

theorem IsSearchable.of_names (hnames : node.HasFileNames) (hdistinct : node.HasDistinctNames) :
    node.IsSearchable := by
  induction hdistinct with
  | file content => exact .file content
  | link target => exact .link target
  | folder hdistinct _ ih =>
      cases hnames with
      | folder hfile hnodes =>
          exact .folder hdistinct (fun name inner hmem => hfile _ hmem)
            fun entry hentry => ih entry hentry (hnodes entry hentry)

theorem IsSearchable.get? (h : node.IsSearchable) (hget : node.get? location = some found) :
    found.IsSearchable := by
  refine get?_inherits (fun entries hfolder => ?_) h hget
  cases hfolder with
  | folder _ _ hnodes => exact hnodes

end Node

namespace Disk

variable {disk other : Disk} {rules : DialectRules} {folder path sources : Path}
  {entries entries' : List (Text × Node)} {files : List Path} {depth : Nat}

/-! ### What is found below pending folders -/

/-- The candidate files below the folder that a path leads to. -/
def samplesFrom (disk : Disk) (rules : DialectRules) (path : Path) : List Path :=
  match disk.node path with
  | .ok (.folder entries) => Node.samplesIn rules path entries
  | _ => []

theorem samplesFrom_eq (h : disk.node folder = .ok (.folder entries)) :
    disk.samplesFrom rules folder = Node.samplesIn rules folder entries := by
  rw [samplesFrom, h]

/-- The files of a folder are those among its entries and those below the folders kept for later. -/
theorem samplesIn_perm (h : disk.CanRead folder entries) (rules : DialectRules) :
    (Node.samplesIn rules folder entries).Perm (entries.flatMap (Search.sample rules folder) ++
      (entries.flatMap (Search.subfolder folder)).flatMap (disk.samplesFrom rules)) := by
  obtain ⟨-, hbelow⟩ := canRead_iff.mp h
  have hentries : ∀ entry ∈ entries,
      Node.samplesAt rules (Path.join folder entry.1) entry.1 entry.2 =
        Search.sample rules folder entry ++
          (Search.subfolder folder entry).flatMap (disk.samplesFrom rules) := by
    rintro ⟨name, node⟩ hentry
    cases node with
    | file content => exact (List.append_nil _).symm
    | link target => rfl
    | folder inner =>
        rw [Node.samplesAt, Search.subfolder, Search.sample, List.nil_append]
        split_ifs with hskipped
        · rfl
        · obtain ⟨hread, -⟩ := canRead_iff.mp (hbelow name inner hentry hskipped)
          rw [List.flatMap_singleton, samplesFrom_eq hread]
  rw [Node.samplesIn_eq_flatMap, List.flatMap_congr hentries, List.flatMap_assoc]
  exact (List.flatMap_append_perm entries _ _).symm

/-! ### A search that comes to its end -/

theorem exists_node_of_search (h : disk.search rules depth folder = .ok files) :
    ∃ entries, disk.node folder = .ok (.folder entries) := by
  cases depth with
  | zero => cases h
  | succ depth =>
      obtain ⟨entries, hnode, -⟩ := search_succ_ok_iff.mp h
      exact ⟨entries, hnode⟩

/-- A search that comes to its end has read all folders of the tree, and found its files. -/
theorem canRead_of_search (hsearchable : (Node.folder entries).IsSearchable)
    (hnode : disk.node folder = .ok (.folder entries))
    (h : disk.search rules depth folder = .ok files) :
    disk.CanRead folder entries ∧ files.Perm (Node.samplesIn rules folder entries) := by
  induction depth generalizing folder entries files with
  | zero => cases h
  | succ depth ih =>
      obtain ⟨others, hothers, hbelow, rfl⟩ := search_succ_ok_iff.mp h
      cases hothers.symm.trans hnode
      cases hsearchable with
      | folder hdistinct hnames hnodes =>
          -- What the path of a folder leads to is the folder that stands in the tree.
          have hinner : ∀ name inner, (name, .folder inner) ∈ entries → ¬isSkippedFolder name →
              ∃ found, disk.search rules depth (Path.join folder name) = .ok found ∧
                disk.CanRead (Path.join folder name) inner ∧
                found.Perm (Node.samplesIn rules (Path.join folder name) inner) := by
            intro name inner hentry hskipped
            have hmem : Path.join folder name ∈ entries.flatMap (Search.subfolder folder) :=
              List.mem_flatMap.mpr ⟨_, hentry, by simp [Search.subfolder, hskipped]⟩
            obtain ⟨found, hfound⟩ := hbelow _ hmem
            obtain ⟨there, hthere⟩ := exists_node_of_search hfound
            obtain ⟨-, -, rfl⟩ := (node_join_iff hnode
              ((Node.child?_eq_some_iff hdistinct).mpr hentry) (hnames name inner hentry)).mp hthere
            exact ⟨found, hfound, ih (hnodes _ hentry) hthere hfound⟩
          have hcan : disk.CanRead folder entries := by
            refine .folder hnode fun name inner hentry hskipped => ?_
            obtain ⟨-, -, hcan, -⟩ := hinner name inner hentry hskipped
            exact hcan
          have hsearched : ∀ path ∈ entries.flatMap (Search.subfolder folder),
              (disk.searched rules depth path).Perm (disk.samplesFrom rules path) := by
            intro path hpath
            obtain ⟨name, inner, hentry, hskipped, rfl⟩ := Search.exists_of_mem_subfolder hpath
            obtain ⟨found, hfound, hcan, hperm⟩ := hinner name inner hentry hskipped
            rw [searched_eq hfound, samplesFrom_eq (canRead_iff.mp hcan).1]
            exact hperm
          refine ⟨hcan, List.Perm.trans ?_ (samplesIn_perm hcan rules).symm⟩
          exact List.Perm.append_left _ (((List.reverse_perm _).flatMap_right _).trans
            (List.Perm.flatMap_left _ hsearched))

/-- In a folder that can be read a search comes to its end before it is too deep. -/
theorem search_of_canRead (hsearchable : (Node.folder entries).IsSearchable)
    (h : disk.CanRead folder entries) (rules : DialectRules)
    (hdepth : maxPathSize < depth + folder.length) :
    ∃ files, disk.search rules depth folder = .ok files := by
  induction depth generalizing folder entries with
  | zero =>
      obtain ⟨hnode, -⟩ := canRead_iff.mp h
      obtain ⟨hparts, -⟩ := node_folder_iff.mp hnode
      have hsize := size_le_of_parts hparts
      have hlength := Utf8.length_le_size folder
      omega
  | succ depth ih =>
      obtain ⟨hnode, hbelow⟩ := canRead_iff.mp h
      cases hsearchable with
      | folder _ hnames hnodes =>
          refine ⟨_, search_succ_ok_iff.mpr ⟨entries, hnode, fun path hpath => ?_, rfl⟩⟩
          obtain ⟨name, inner, hentry, hskipped, rfl⟩ := Search.exists_of_mem_subfolder hpath
          have hlonger := Path.length_lt_join (hnames name inner hentry) folder
          exact ih (hnodes _ hentry) (hbelow name inner hentry hskipped) (by omega)

/-! ### Discovery -/

theorem canRead_of_discover (hsearchable : disk.root.IsSearchable)
    (h : disk.discover rules sources = .ok files) :
    ∃ entries, disk.CanRead sources entries ∧
      ∃ found : List Path, found.Perm (Node.samplesIn rules sources entries) ∧
        files = found.mergeSort Path.le := by
  obtain ⟨-, found, hfound, rfl⟩ := discover_ok_iff.mp h
  obtain ⟨entries, hnode⟩ := exists_node_of_search hfound
  obtain ⟨-, base, -, hget⟩ := node_folder_iff.mp hnode
  obtain ⟨hcan, hperm⟩ := canRead_of_search (hsearchable.get? hget) hnode hfound
  exact ⟨entries, hcan, found, hperm, rfl⟩

theorem discover_of_canRead (hsearchable : (Node.folder entries).IsSearchable)
    (h : disk.CanRead sources entries) (rules : DialectRules) :
    ∃ found : List Path, found.Perm (Node.samplesIn rules sources entries) ∧
      disk.discover rules sources = .ok (found.mergeSort Path.le) := by
  obtain ⟨hnode, -⟩ := canRead_iff.mp h
  have hfolder : disk.hasFolder sources := by
    rw [hasFolder, hnode]
    rfl
  have hlong : maxPathSize < maxPathSize + sources.length :=
    Nat.lt_add_of_pos_right (length_pos_of_parts (node_folder_iff.mp hnode).1)
  obtain ⟨found, hfound⟩ := search_of_canRead hsearchable h rules hlong
  exact ⟨found, (canRead_of_search hsearchable hnode hfound).2,
    discover_ok_iff.mpr ⟨hfolder, found, hfound, rfl⟩⟩

/-- **Readable sources.** Discovery succeeds in exactly the sources that can be read, each folder by
its path. -/
theorem exists_discover_iff (hsearchable : disk.root.IsSearchable) (rules : DialectRules) :
    (∃ files, disk.discover rules sources = .ok files) ↔ ∃ entries, disk.CanRead sources entries := by
  constructor
  · rintro ⟨files, h⟩
    obtain ⟨entries, hcan, -⟩ := canRead_of_discover hsearchable h
    exact ⟨entries, hcan⟩
  · rintro ⟨entries, hcan⟩
    obtain ⟨-, base, -, hget⟩ := node_folder_iff.mp (canRead_iff.mp hcan).1
    obtain ⟨found, -, hfound⟩ := discover_of_canRead (hsearchable.get? hget) hcan rules
    exact ⟨_, hfound⟩

/-- What is discovered are the candidate files of the tree in their order. -/
theorem discover_eq (hnames : (Node.folder entries).HasFileNames)
    (hdistinct : (Node.folder entries).HasDistinctNames) (h : disk.CanRead sources entries)
    (rules : DialectRules) :
    disk.discover rules sources = .ok ((Node.samplesIn rules sources entries).mergeSort Path.le) := by
  obtain ⟨found, hperm, hfound⟩ := discover_of_canRead (.of_names hnames hdistinct) h rules
  rw [hfound, Path.mergeSort_eq_of_perm hperm fun _ ha _ hb =>
    Node.samplesIn_eq_of_components hnames ha hb]

/-- Folders that are all in a tree that can be read can be read themselves. -/
theorem CanRead.of_folders (h : disk.CanRead folder entries)
    (hnode : other.node folder = .ok (.folder entries'))
    (hsearchable : (Node.folder entries').IsSearchable)
    (hfolders : ∀ location, (Node.folder entries').look location = .folder →
      (Node.folder entries).look location = .folder) : other.CanRead folder entries' := by
  generalize htree : Node.folder entries' = tree at hsearchable
  induction hsearchable generalizing folder entries entries' with
  | file | link => cases htree
  | @folder entries' hdistinct hnames hnodes ih =>
      cases htree
      refine .folder hnode fun name inner hentry hskipped => ?_
      have hchild := (Node.child?_eq_some_iff hdistinct).mpr hentry
      have hget : (Node.folder entries').get? [name] = some (.folder inner) :=
        Node.get?_singleton hchild
      -- The same name leads to a folder of the other tree, whose path keeps the limits.
      obtain ⟨there, hthere⟩ := Node.look_eq_folder_iff.mp
        (hfolders [name] (Node.look_eq_folder_iff.mpr ⟨inner, hget⟩))
      obtain ⟨child, hchild', hsame⟩ := Option.bind_eq_some_iff.mp hthere
      cases hsame
      obtain ⟨hread, hbelow⟩ := canRead_iff.mp h
      have hinner := hbelow name there (Node.mem_of_child? hchild') hskipped
      have hname := hnames name inner hentry
      obtain ⟨hparts, hsize, -⟩ :=
        (node_join_iff hread hchild' hname).mp (canRead_iff.mp hinner).1
      refine ih _ hentry hinner ((node_join_iff hnode hchild hname).mpr ⟨hparts, hsize, rfl⟩)
        (fun location hlook => ?_) rfl
      have hpath := hfolders (name :: location) ((Node.look_append hget).trans hlook)
      exact (Node.look_append hthere).symm.trans hpath

end Disk

end SampleHarvest
