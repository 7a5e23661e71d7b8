import Mathlib.Data.List.Basic
import SampleHarvest.Harvest.Discovery
import SampleHarvest.Proofs.Disk.Change

/-!
# Discovered files are known by their components

A search of a folder finds the candidate files among its entries and those of the folders below that
are not left out, and it fails if one of these fails.

A file system allows no name that is empty, means a folder itself or the one above, or holds a
slash. In a tree with such names every discovered file is the source folder joined with names, so two
of them with the same components have the same path.
-/

namespace SampleHarvest

/-! ### Going through a list -/

section Traversal

variable {ε α β : Type} {f : α → Except ε β} {xs : List α}

theorem mapM_error_iff :
    (∃ failure, xs.mapM f = .error failure) ↔ ∃ x ∈ xs, ∃ failure, f x = .error failure := by
  induction xs with
  | nil => simp [pure, Except.pure]
  | cons x xs ih =>
      rw [List.exists_mem_cons_iff, ← ih, List.mapM_cons]
      cases f x with
      | error failure => simp [bind, Except.bind]
      | ok y => cases xs.mapM f <;> simp [bind, Except.bind, pure, Except.pure]

theorem mapM_ok {given : α → β} (h : ∀ x ∈ xs, f x = .ok (given x)) :
    xs.mapM f = .ok (xs.map given) := by
  induction xs with
  | nil => rfl
  | cons x xs ih =>
      obtain ⟨hfirst, hrest⟩ := List.forall_mem_cons.mp h
      rw [List.mapM_cons, hfirst, ih hrest]
      rfl

theorem exists_of_mapM_ok {ys : List β} (h : xs.mapM f = .ok ys) : ∀ x ∈ xs, ∃ y, f x = .ok y := by
  intro x hx
  cases hfirst : f x with
  | ok y => exact ⟨y, rfl⟩
  | error failure =>
      obtain ⟨failure, hfailure⟩ := mapM_error_iff.mpr ⟨x, hx, failure, hfirst⟩
      cases h.symm.trans hfailure

end Traversal

namespace Node

/-- All names in a tree are names that a file system allows. -/
inductive HasFileNames : Node → Prop
  | file (content : Content) : HasFileNames (.file content)
  | link (target : Path) : HasFileNames (.link target)
  | folder {entries : List (Text × Node)} (hnames : ∀ entry ∈ entries, Path.IsFileName entry.1)
      (hnodes : ∀ entry ∈ entries, HasFileNames entry.2) : HasFileNames (.folder entries)

/-- What goes over from folders to their entries goes over to all nodes in them. -/
theorem get?_inherits {P : Node → Prop}
    (hentries : ∀ entries, P (.folder entries) → ∀ entry ∈ entries, P entry.2) {node found : Node}
    {location : Location} (h : P node) (hget : node.get? location = some found) : P found := by
  induction location generalizing node with
  | nil =>
      cases hget
      exact h
  | cons name location ih =>
      rw [Node.get?] at hget
      obtain ⟨child, hchild, hfound⟩ := Option.bind_eq_some_iff.mp hget
      have hmem := mem_of_child? hchild
      cases node with
      | file | link => cases hmem
      | folder entries => exact ih (hentries entries h _ hmem) hfound

theorem HasFileNames.get? {node found : Node} (h : node.HasFileNames) {location : Location}
    (hget : node.get? location = some found) : found.HasFileNames := by
  refine get?_inherits (fun entries hfolder => ?_) h hget
  cases hfolder with
  | folder _ hnodes => exact hnodes

def joinNames (base : Path) (names : List Text) : Path := names.foldl Path.join base

theorem components_joinNames (base : Path) {names : List Text}
    (h : ∀ name ∈ names, Path.IsFileName name) :
    Path.components (joinNames base names) =
      Path.components base ++ names.map Path.Component.name := by
  induction names generalizing base with
  | nil => rw [joinNames, List.foldl_nil, List.map_nil, List.append_nil]
  | cons name names ih =>
      have hrest := ih (Path.join base name) fun other hother =>
        h other (List.mem_cons_of_mem _ hother)
      rw [Path.components_join (h name List.mem_cons_self), List.append_assoc] at hrest
      exact hrest

theorem joinNames_injective {base : Path} {names others : List Text}
    (hnames : ∀ name ∈ names, Path.IsFileName name)
    (hothers : ∀ name ∈ others, Path.IsFileName name)
    (h : Path.components (joinNames base names) = Path.components (joinNames base others)) :
    names = others := by
  rw [components_joinNames base hnames, components_joinNames base hothers,
    List.append_cancel_left_eq] at h
  exact (List.map_inj_right fun _ _ => Path.Component.name.inj).mp h

end Node

namespace Disk

variable {disk : Disk} {rules : DialectRules} {depth : Nat} {folder sources path : Path}
  {files : List Path} {entries : List (Text × Node)}

theorem readFolder_ok_iff :
    disk.readFolder folder = .ok entries ↔ disk.node folder = .ok (.folder entries) := by
  rw [readFolder]
  cases disk.node folder with
  | error fault => simp
  | ok node => cases node <;> simp

/-- What a search finds if it comes to an end. -/
def searched (disk : Disk) (rules : DialectRules) (depth : Nat) (folder : Path) : List Path :=
  (disk.search rules depth folder).toOption.getD []

theorem searched_eq (h : disk.search rules depth folder = .ok files) :
    disk.searched rules depth folder = files := by
  rw [searched, h]
  rfl

theorem search_succ_ok_iff : disk.search rules (depth + 1) folder = .ok files ↔
    ∃ entries, disk.node folder = .ok (.folder entries) ∧
      (∀ path ∈ entries.flatMap (Search.subfolder folder),
        ∃ found, disk.search rules depth path = .ok found) ∧
      files = entries.flatMap (Search.sample rules folder) ++
        (entries.flatMap (Search.subfolder folder)).reverse.flatMap (disk.searched rules depth) := by
  have hmap : ∀ paths : List Path, (∀ path ∈ paths, ∃ found, disk.search rules depth path = .ok found) →
      paths.reverse.mapM (disk.search rules depth) =
        .ok (paths.reverse.map (disk.searched rules depth)) := by
    refine fun paths hfound => mapM_ok fun path hpath => ?_
    obtain ⟨found, hok⟩ := hfound path (List.mem_reverse.mp hpath)
    rw [hok, searched_eq hok]
  rw [search]
  simp only [← readFolder_ok_iff]
  cases hread : disk.readFolder folder with
  | error fault => simp [bind, Except.bind]
  | ok entries =>
      simp only [bind, Except.bind, pure, Except.pure, Except.ok.injEq, exists_eq_left']
      constructor
      · intro h
        cases hbelow : (entries.flatMap (Search.subfolder folder)).reverse.mapM
            (disk.search rules depth) with
        | error fault =>
            rw [hbelow] at h
            cases h
        | ok below =>
            have hfound : ∀ path ∈ entries.flatMap (Search.subfolder folder),
                ∃ found, disk.search rules depth path = .ok found := fun path hpath =>
              exists_of_mapM_ok hbelow path (List.mem_reverse.mpr hpath)
            rw [hmap _ hfound] at h
            rw [← Except.ok.inj h, List.flatMap_def]
            exact ⟨hfound, rfl⟩
      · rintro ⟨hfound, rfl⟩
        rw [hmap _ hfound]
        dsimp only
        rw [← List.flatMap_def]

theorem discover_ok_iff : disk.discover rules sources = .ok files ↔ disk.hasFolder sources ∧
    ∃ found, disk.search rules maxPathSize sources = .ok found ∧ files = found.mergeSort Path.le := by
  rw [discover]
  split_ifs with hfolder
  · cases hfound : disk.search rules maxPathSize sources with
    | error fault => simp
    | ok found => simp [hfolder, eq_comm]
  · simp [hfolder]

end Disk

namespace Search

variable {rules : DialectRules} {folder path : Path} {entries : List (Text × Node)}

theorem exists_of_mem_subfolder (h : path ∈ entries.flatMap (subfolder folder)) :
    ∃ name inner, (name, .folder inner) ∈ entries ∧ ¬isSkippedFolder name ∧
      path = Path.join folder name := by
  obtain ⟨⟨name, node⟩, hentry, hpath⟩ := List.mem_flatMap.mp h
  cases node with
  | file | link => cases hpath
  | folder inner =>
      rw [subfolder] at hpath
      split_ifs at hpath with hskipped
      · cases hpath
      · exact ⟨name, inner, hentry, hskipped, List.mem_singleton.mp hpath⟩

theorem exists_of_mem_sample (h : path ∈ entries.flatMap (sample rules folder)) :
    ∃ name content, (name, .file content) ∈ entries ∧ rules.acceptsFileName name ∧
      path = Path.join folder name := by
  obtain ⟨⟨name, node⟩, hentry, hpath⟩ := List.mem_flatMap.mp h
  cases node with
  | folder | link => cases hpath
  | file content =>
      rw [sample] at hpath
      split_ifs at hpath with haccepted
      · exact ⟨name, content, hentry, haccepted, List.mem_singleton.mp hpath⟩
      · cases hpath

end Search

/-- What a folder at a path holds has proper names if all on the disk have. -/
theorem Disk.hasFileNames_of_node {disk : Disk} {path : Path} {entries : List (Text × Node)}
    (hnamed : disk.root.HasFileNames) (h : disk.node path = .ok (.folder entries)) :
    (Node.folder entries).HasFileNames := by
  obtain ⟨-, base, -, hget⟩ := node_folder_iff.mp h
  exact hnamed.get? hget

theorem Disk.search_names {disk : Disk} {rules : DialectRules} {depth : Nat} {folder : Path}
    {files : List Path} (hnamed : disk.root.HasFileNames)
    (h : disk.search rules depth folder = .ok files) :
    ∀ path ∈ files, ∃ names,
      (∀ name ∈ names, Path.IsFileName name) ∧ path = Node.joinNames folder names := by
  induction depth generalizing folder files with
  | zero => cases h
  | succ depth ih =>
      obtain ⟨entries, hnode, hbelow, rfl⟩ := search_succ_ok_iff.mp h
      cases hasFileNames_of_node hnamed hnode with
      | folder hnames _ =>
          intro path hpath
          rcases List.mem_append.mp hpath with hpath | hpath
          · obtain ⟨name, content, hentry, -, rfl⟩ := Search.exists_of_mem_sample hpath
            exact ⟨[name], List.forall_mem_singleton.mpr (hnames _ hentry), rfl⟩
          · obtain ⟨inner, hinner, hpath⟩ := List.mem_flatMap.mp hpath
            have hmem := List.mem_reverse.mp hinner
            obtain ⟨found, hfound⟩ := hbelow inner hmem
            rw [searched_eq hfound] at hpath
            obtain ⟨names, hall, rfl⟩ := ih hfound path hpath
            obtain ⟨name, others, hentry, -, rfl⟩ := Search.exists_of_mem_subfolder hmem
            exact ⟨name :: names, List.forall_mem_cons.mpr ⟨hnames _ hentry, hall⟩, rfl⟩

theorem Disk.discover_eq_of_components {disk : Disk} {rules : DialectRules} {sources : Path}
    {files : List Path} (hnamed : disk.root.HasFileNames)
    (h : disk.discover rules sources = .ok files) {a b : Path} (ha : a ∈ files) (hb : b ∈ files)
    (hcomponents : Path.components a = Path.components b) : a = b := by
  obtain ⟨-, found, hfound, rfl⟩ := discover_ok_iff.mp h
  have hsorted := List.mergeSort_perm found Path.le
  obtain ⟨names, hnames, rfl⟩ := search_names hnamed hfound a (hsorted.mem_iff.mp ha)
  obtain ⟨others, hothers, rfl⟩ := search_names hnamed hfound b (hsorted.mem_iff.mp hb)
  rw [Node.joinNames_injective hnames hothers hcomponents]

end SampleHarvest
