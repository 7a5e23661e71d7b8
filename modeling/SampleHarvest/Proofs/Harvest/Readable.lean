import SampleHarvest.Proofs.Harvest.Candidates
import SampleHarvest.Proofs.Text.Utf8

/-!
# Sources that can be read

A search reads the folders of a tree that are not left out, each by its path. The path of a folder
leads to it from the sources, because each name leads down from the folder before, unless the path or
a name is longer than a file system takes. So sources whose paths keep the limits can be read.
-/

namespace SampleHarvest

/-! ### The folders of a tree -/

namespace Node

mutual

/-- The folders that a search reads where a node of this path stands. -/
def foldersAt (path : Path) : Node → List Path
  | file _ => []
  | link _ => []
  | folder entries => path :: foldersIn path entries

/-- The folders that a search reads below a folder with this path. -/
def foldersIn (path : Path) : List (Text × Node) → List Path
  | [] => []
  | (name, node) :: entries =>
    (if isSkippedFolder name then [] else foldersAt (Path.join path name) node) ++
      foldersIn path entries

end

variable {node : Node} {base : Path}

theorem foldersAt_folder (base : Path) (entries : List (Text × Node)) :
    foldersAt base (folder entries) = base :: entries.flatMap fun entry =>
      if isSkippedFolder entry.1 then [] else foldersAt (Path.join base entry.1) entry.2 := by
  rw [foldersAt]
  congr 1
  induction entries with
  | nil => rw [foldersIn, List.flatMap_nil]
  | cons entry entries ih => rw [foldersIn, ih, List.flatMap_cons]

theorem foldersAt_names (hnames : node.HasFileNames) :
    ∀ path ∈ foldersAt base node, ∃ names,
      (∀ name ∈ names, Path.IsFileName name) ∧ path = joinNames base names := by
  induction hnames generalizing base with
  | file | link =>
      rw [foldersAt]
      exact List.forall_mem_nil _
  | @folder entries hfile _ ih =>
      intro path hpath
      rw [foldersAt_folder] at hpath
      rcases List.mem_cons.mp hpath with rfl | hpath
      · exact ⟨[], List.forall_mem_nil _, rfl⟩
      obtain ⟨entry, hentry, hpath⟩ := List.mem_flatMap.mp hpath
      split_ifs at hpath
      · cases hpath
      · obtain ⟨names, hall, rfl⟩ := ih entry hentry path hpath
        exact ⟨entry.1 :: names, List.forall_mem_cons.mpr ⟨hfile entry hentry, hall⟩, rfl⟩

theorem foldersAt_nodup (hnames : node.HasFileNames) (hdistinct : node.HasDistinctNames) :
    (foldersAt base node).Nodup := by
  induction hdistinct generalizing base with
  | file | link =>
      rw [foldersAt]
      exact List.nodup_nil
  | @folder entries hdistinct _ ih =>
      cases hnames with
      | folder hfile hnodes =>
          have hbelow : ∀ entry ∈ entries, ∀ path ∈ (if isSkippedFolder entry.1 then []
              else foldersAt (Path.join base entry.1) entry.2), ∃ names,
                (∀ name ∈ names, Path.IsFileName name) ∧
                  path = joinNames (Path.join base entry.1) names := by
            intro entry hentry path hpath
            split_ifs at hpath
            · cases hpath
            · exact foldersAt_names (hnodes entry hentry) path hpath
          rw [foldersAt_folder, List.nodup_cons]
          constructor
          · intro hmem
            obtain ⟨entry, hentry, hpath⟩ := List.mem_flatMap.mp hmem
            obtain ⟨names, hall, heq⟩ := hbelow entry hentry base hpath
            have hself : Path.components (joinNames base []) =
                Path.components (joinNames base (entry.1 :: names)) := congrArg Path.components heq
            cases joinNames_injective (List.forall_mem_nil _)
              (List.forall_mem_cons.mpr ⟨hfile entry hentry, hall⟩) hself
          · refine nodup_flatMap_entries hfile hdistinct (fun entry hentry => ?_) hbelow
            split_ifs
            · exact List.nodup_nil
            · exact ih entry hentry (hnodes entry hentry)

end Node

/-! ### Reading by paths -/

/-- A path that is empty or ends with a slash has an empty part at its end. -/
theorem Path.splitOn_of_open_end {path : Path} (h : path.isEmpty || Text.endsWith path "/") :
    Text.splitOn '/' path = (Text.splitOn '/' path).dropLast ++ [[]] := by
  rcases (Bool.or_eq_true _ _).mp h with hempty | hends
  · rw [List.isEmpty_iff.mp hempty]
    rfl
  · obtain ⟨front, rfl⟩ := List.isSuffixOf_iff_suffix.mp hends
    have hlast : Text.splitOn '/' (front ++ ("/" : Text)) = Text.splitOn '/' front ++ [[]] :=
      Text.splitOn_append front []
    rw [hlast, List.dropLast_concat]

theorem Path.splitOn_join_name {name : Text} (hname : IsFileName name) (base : Path) :
    Text.splitOn '/' (join base name) = baseParts base ++ [name] := by
  have hsplit := splitOn_eq_singleton hname.2.2
  rw [splitOn_join (not_isAbsolute_of_first hsplit hname.1), hsplit]

namespace Disk

variable {disk : Disk} {root : Node} {location here : Location} {parts : List Text} {path : Path}
  {entries inner found : List (Text × Node)} {name : Text}

/-- A folder can be read by this path, and those in it that a search reads by theirs. -/
inductive CanRead (disk : Disk) : Path → List (Text × Node) → Prop
  | folder {path : Path} {entries : List (Text × Node)}
      (hread : disk.node path = .ok (.folder entries))
      (hbelow : ∀ name inner, (name, .folder inner) ∈ entries → ¬isSkippedFolder name →
        CanRead disk (Path.join path name) inner) : CanRead disk path entries

theorem canRead_iff : disk.CanRead path entries ↔
    disk.node path = .ok (.folder entries) ∧
      ∀ name inner, (name, .folder inner) ∈ entries → ¬isSkippedFolder name →
        disk.CanRead (Path.join path name) inner :=
  ⟨fun ⟨hread, hbelow⟩ => ⟨hread, hbelow⟩, fun ⟨hread, hbelow⟩ => .folder hread hbelow⟩

/-- A slash at the end leads no further. -/
theorem LeadsTo.of_append_empty {links : Nat}
    (h : LeadsTo root location links here (parts ++ [[]])) :
    LeadsTo root location links here parts := by
  -- A link puts parts in front of the rest and leaves its end, so the whole list is generalized.
  generalize hwhole : parts ++ [[]] = whole at h
  induction h generalizing parts with
  | done => cases (List.append_eq_nil_iff.mp hwhole).2
  | idle hidle hrest ih =>
      cases parts with
      | nil =>
          obtain ⟨-, rfl⟩ := List.cons.inj hwhole
          exact hrest
      | cons first parts =>
          obtain ⟨rfl, htail⟩ := List.cons.inj hwhole
          exact .idle hidle (ih htail)
  | up _ ih =>
      cases parts with
      | nil => cases hwhole
      | cons first parts =>
          obtain ⟨rfl, htail⟩ := List.cons.inj hwhole
          exact .up (ih htail)
  | down hname hlook _ ih =>
      cases parts with
      | nil =>
          obtain ⟨rfl, -⟩ := List.cons.inj hwhole
          exact absurd rfl hname.1
      | cons first parts =>
          obtain ⟨rfl, htail⟩ := List.cons.inj hwhole
          exact .down hname hlook (ih htail)
  | link hname hlook _ ih =>
      cases parts with
      | nil =>
          obtain ⟨rfl, -⟩ := List.cons.inj hwhole
          exact absurd rfl hname.1
      | cons first parts =>
          obtain ⟨rfl, rfl⟩ := List.cons.inj hwhole
          exact .link hname hlook (ih (List.append_assoc _ _ _))

/-- The parts that a longer path begins with lead where the folder itself leads. -/
theorem LeadsTo.baseParts {links : Nat}
    (h : LeadsTo root location links here (Text.splitOn '/' path)) :
    LeadsTo root location links here (Path.baseParts path) := by
  rw [Path.baseParts]
  split_ifs with hend
  · rw [Path.splitOn_of_open_end hend] at h
    exact h.of_append_empty
  · exact h

/-- A folder in one that a path leads to is what the path joined with its name leads to, if that path
and the name are not too long. -/
theorem node_join_iff (hnode : disk.node path = .ok (.folder entries))
    (hchild : Node.child? name entries = some (.folder inner)) (hfile : Path.IsFileName name) :
    disk.node (Path.join path name) = .ok (.folder found) ↔
      Disk.parts (Path.join path name) = .ok (Text.splitOn '/' (Path.join path name)) ∧
        ¬maxNameSize < Utf8.size name ∧ found = inner := by
  obtain ⟨-, base, hleads, hget⟩ := node_folder_iff.mp hnode
  have hbelow : disk.root.get? (base ++ [name]) = some (.folder inner) := by
    rw [Node.get?_append, hget]
    exact Node.get?_singleton hchild
  have hlook : disk.root.look (base ++ [name]) = .folder := Node.look_eq_folder_iff.mpr ⟨inner, hbelow⟩
  have hsplit : Text.splitOn '/' (Path.join path name) = Path.baseParts path ++ [name] :=
    Path.splitOn_join_name hfile path
  have hstart : disk.start (Path.join path name) = disk.start path := by
    rw [start, start, Path.isAbsolute_join
      (Path.not_isAbsolute_of_first (Path.splitOn_eq_singleton hfile.2.2) hfile.1)]
  have hto : IsName name → LeadsTo disk.root (base ++ [name]) maxLinks
      (disk.start (Path.join path name)) (Text.splitOn '/' (Path.join path name)) := by
    intro hname
    rw [hstart, hsplit]
    exact hleads.baseParts.append fun left => .down hname hlook (.done hlook)
  constructor
  · intro h
    obtain ⟨hparts, last, hlast, hfound⟩ := node_folder_iff.mp h
    have hsize : ¬maxNameSize < Utf8.size name := by
      intro hlong
      obtain ⟨left, hleft⟩ := hleads.baseParts.walk_append [name]
      obtain ⟨others, hwalk⟩ := hlast.walk
      rw [hstart, hsplit, hleft, walk_error (steps_long hfile.1 hfile.2.1 hlong)] at hwalk
      cases hwalk
    obtain rfl := hlast.unique (hto ⟨hfile.1, hfile.2.1, hsize⟩)
    cases hfound.symm.trans hbelow
    exact ⟨hparts, hsize, rfl⟩
  · rintro ⟨hparts, hsize, rfl⟩
    exact node_folder_iff.mpr ⟨hparts, base ++ [name], hto ⟨hfile.1, hfile.2.1, hsize⟩, hbelow⟩

theorem size_le_of_parts (h : Disk.parts path = .ok parts) : Utf8.size path ≤ maxPathSize := by
  rw [Disk.parts] at h
  split_ifs at h with hnul hempty hsize
  exact Nat.not_lt.mp hsize

theorem length_pos_of_parts (h : Disk.parts path = .ok parts) : 0 < path.length := by
  rw [Disk.parts] at h
  split_ifs at h with hnul hempty hsize
  exact List.length_pos_of_ne_nil fun hnil => hempty (List.isEmpty_iff.mpr hnil)

/-- A path that a file system takes. -/
structure KeepsLimits (path : Path) : Prop where
  no_nul : '\x00' ∉ path
  size_le : Utf8.size path ≤ maxPathSize
  name_size_le : ∀ part ∈ Text.splitOn '/' path, Utf8.size part ≤ maxNameSize

theorem KeepsLimits.parts_eq (h : KeepsLimits path) (hne : path ≠ []) :
    Disk.parts path = .ok (Text.splitOn '/' path) := by
  have hnul : ¬path.any (· == '\x00') := by
    rw [List.any_eq_true]
    rintro ⟨c, hc, heq⟩
    exact h.no_nul (beq_iff_eq.mp heq ▸ hc)
  rw [Disk.parts, if_neg hnul, if_neg (mt List.isEmpty_iff.mp hne), if_neg (Nat.not_lt.mpr h.size_le)]

/-- A folder can be read with all in it that a search reads if their paths keep the limits. -/
theorem canRead_of_keepsLimits (hnames : (Node.folder entries).HasFileNames)
    (hdistinct : (Node.folder entries).HasDistinctNames)
    (hnode : disk.node path = .ok (.folder entries))
    (hlimits : ∀ folder ∈ Node.foldersAt path (.folder entries), KeepsLimits folder) :
    disk.CanRead path entries := by
  generalize htree : Node.folder entries = tree at hdistinct
  induction hdistinct generalizing path entries with
  | file | link => cases htree
  | @folder entries hdistinct _ ih =>
      cases htree
      cases hnames with
      | folder hfile hnodes =>
          refine .folder hnode fun name inner hentry hskipped => ?_
          have hinner : ∀ folder ∈ Node.foldersAt (Path.join path name) (.folder inner),
              KeepsLimits folder := by
            intro folder hfolder
            apply hlimits
            rw [Node.foldersAt_folder]
            refine List.mem_cons_of_mem _ (List.mem_flatMap.mpr ⟨_, hentry, ?_⟩)
            rw [if_neg hskipped]
            exact hfolder
          have hself : KeepsLimits (Path.join path name) := by
            apply hinner
            rw [Node.foldersAt_folder]
            exact List.mem_cons_self
          have hname := hfile _ hentry
          have hmem : name ∈ Text.splitOn '/' (Path.join path name) := by
            rw [Path.splitOn_join_name hname]
            exact List.mem_append_right _ (List.mem_singleton_self name)
          have hne : Path.join path name ≠ [] := by
            intro hnil
            rw [hnil] at hmem
            exact hname.1 (List.mem_singleton.mp hmem ▸ rfl)
          have hread := (node_join_iff hnode ((Node.child?_eq_some_iff hdistinct).mpr hentry) hname).mpr
            ⟨hself.parts_eq hne, Nat.not_lt.mpr (hself.name_size_le name hmem), rfl⟩
          exact ih _ hentry (hnodes _ hentry) hread hinner rfl

end Disk

end SampleHarvest
