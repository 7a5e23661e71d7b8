import Mathlib.Data.List.Sort
import SampleHarvest.Proofs.Harvest.Discovery

/-!
# Candidate files

A file is discovered if its name is accepted and all folders on the way down to it are folders, and
not links to some, that are not left out. In a tree where no folder has a name twice every such file
is found once.

The files are strictly ascending by their components. A list like this is known by its members, so
the order in which a folder lists its entries does not matter.
-/

namespace SampleHarvest

/-! ### Ascending paths -/

namespace Path

theorem le_total (a b : Path) : (le a b || le b a) = true :=
  (Bool.or_eq_true _ _).mpr (componentsLe_total _ _)

theorem le_trans (a b c : Path) (hab : le a b) (hbc : le b c) : le a c := componentsLe_trans hab hbc

/-- Every path comes before all that stand behind it, and none is as far as an earlier one. -/
def IsAscending (paths : List Path) : Prop := paths.Pairwise fun a b => ¬le b a

variable {paths others : List Path}

theorem IsAscending.nodup (h : IsAscending paths) : paths.Nodup := by
  refine List.Pairwise.imp (fun {a b} hbefore heq => hbefore ?_) h
  rw [heq]
  exact (componentsLe_total _ _).elim id id

theorem mergeSort_eq_of_perm (hperm : paths.Perm others)
    (hcomponents : ∀ a ∈ others, ∀ b ∈ others, components a = components b → a = b) :
    paths.mergeSort le = others.mergeSort le := by
  have hpaths := (List.mergeSort_perm paths le).trans hperm
  have hothers := List.mergeSort_perm others le
  refine List.Perm.eq_of_pairwise (fun a b ha hb hab hba => ?_)
    (List.pairwise_mergeSort le_trans le_total paths)
    (List.pairwise_mergeSort le_trans le_total others) (hpaths.trans hothers.symm)
  exact hcomponents a (hpaths.mem_iff.mp ha) b (hothers.mem_iff.mp hb) (componentsLe_antisymm hab hba)

theorem isAscending_mergeSort (hnodup : paths.Nodup)
    (hcomponents : ∀ a ∈ paths, ∀ b ∈ paths, components a = components b → a = b) :
    IsAscending (paths.mergeSort le) := by
  have hperm := List.mergeSort_perm paths le
  have hsorted := List.pairwise_mergeSort le_trans le_total paths
  refine (hsorted.and (hperm.nodup_iff.mpr hnodup)).imp_of_mem fun {a b} ha hb h hba => h.2 ?_
  exact hcomponents a (hperm.mem_iff.mp ha) b (hperm.mem_iff.mp hb) (componentsLe_antisymm h.1 hba)

end Path

namespace Node

variable {rules : DialectRules} {node child : Node} {entries : List (Text × Node)} {base path : Path}
  {name first : Text} {folders : Location}

/-! ### Candidates -/

/-- No folder of a tree has a name twice. -/
inductive HasDistinctNames : Node → Prop
  | file (content : Content) : HasDistinctNames (.file content)
  | link (target : Path) : HasDistinctNames (.link target)
  | folder {entries : List (Text × Node)} (hdistinct : (entries.map Prod.fst).Nodup)
      (hnodes : ∀ entry ∈ entries, HasDistinctNames entry.2) : HasDistinctNames (.folder entries)

theorem HasDistinctNames.get? {node found : Node} {location : Location}
    (h : node.HasDistinctNames) (hget : node.get? location = some found) :
    found.HasDistinctNames := by
  refine get?_inherits (fun entries hfolder => ?_) h hget
  cases hfolder with
  | folder _ hnodes => exact hnodes

/-- A tree has a candidate file of this name where these folders lead to. -/
@[mk_iff]
structure IsCandidate (node : Node) (rules : DialectRules) (folders : Location) (name : Text) :
    Prop where
  is_file : ∃ content, node.look (folders ++ [name]) = .file content
  accepted : rules.acceptsFileName name
  real : ∀ above, above <+: folders → node.look above = .folder
  searched : ∀ folder ∈ folders, ¬isSkippedFolder folder

theorem child?_eq_some_iff (h : (entries.map Prod.fst).Nodup) :
    child? name entries = some node ↔ (name, node) ∈ entries := by
  refine ⟨mem_of_child?, fun hmem => ?_⟩
  induction entries with
  | nil => cases hmem
  | cons entry entries ih =>
      obtain ⟨hnot, hrest⟩ := List.nodup_cons.mp h
      rw [child?]
      rcases List.mem_cons.mp hmem with rfl | hmem
      · exact if_pos rfl
      · rw [if_neg, ih hrest hmem]
        rintro rfl
        exact hnot (List.mem_map.mpr ⟨_, hmem, rfl⟩)

theorem get?_singleton (hchild : child? name entries = some child) :
    (folder entries).get? [name] = some child := by
  rw [get?, Node.entries, hchild]
  rfl

theorem isCandidate_nil_iff : (folder entries).IsCandidate rules [] name ↔
    (∃ content, child? name entries = some (file content)) ∧ rules.acceptsFileName name := by
  constructor
  · rintro ⟨⟨content, hfile⟩, haccepted, -, -⟩
    obtain ⟨child, hchild, hget⟩ := Option.bind_eq_some_iff.mp (look_eq_file_iff.mp hfile)
    cases hget
    exact ⟨⟨content, hchild⟩, haccepted⟩
  · rintro ⟨⟨content, hchild⟩, haccepted⟩
    refine ⟨⟨content, look_eq_file_iff.mpr (get?_singleton hchild)⟩, haccepted, ?_, nofun⟩
    intro above habove
    rw [List.prefix_nil.mp habove]
    rfl

theorem isCandidate_cons_iff : (folder entries).IsCandidate rules (first :: folders) name ↔
    ¬isSkippedFolder first ∧
      ∃ child, child? first entries = some child ∧ child.IsCandidate rules folders name := by
  constructor
  · rintro ⟨hfile, haccepted, hreal, hsearched⟩
    obtain ⟨hfirst, hfolders⟩ := List.forall_mem_cons.mp hsearched
    obtain ⟨inner, hinner⟩ := look_eq_folder_iff.mp (hreal [first] ⟨folders, rfl⟩)
    obtain ⟨child, hchild, -⟩ := Option.bind_eq_some_iff.mp hinner
    have hget := get?_singleton hchild
    refine ⟨hfirst, child, hchild, ?_, haccepted, fun above habove => ?_, hfolders⟩
    · obtain ⟨content, hcontent⟩ := hfile
      exact ⟨content, (look_append hget).symm.trans hcontent⟩
    · exact (look_append hget).symm.trans (hreal _ (List.cons_prefix_cons.mpr ⟨rfl, habove⟩))
  · rintro ⟨hfirst, child, hchild, ⟨content, hcontent⟩, haccepted, hreal, hsearched⟩
    have hget := get?_singleton hchild
    refine ⟨⟨content, (look_append hget).trans hcontent⟩, haccepted, fun above habove => ?_,
      List.forall_mem_cons.mpr ⟨hfirst, hsearched⟩⟩
    cases above with
    | nil => rfl
    | cons other above =>
        obtain ⟨rfl, hrest⟩ := List.cons_prefix_cons.mp habove
        exact (look_append hget).trans (hreal above hrest)

/-! ### What is found in a tree -/

mutual

/-- The candidate files that an entry of this path and name stands for or holds. -/
def samplesAt (rules : DialectRules) (path : Path) (name : Text) : Node → List Path
  | file _ => if rules.acceptsFileName name then [path] else []
  | link _ => []
  | folder entries => if isSkippedFolder name then [] else samplesIn rules path entries

/-- The candidate files among the entries of a folder with this path. -/
def samplesIn (rules : DialectRules) (path : Path) : List (Text × Node) → List Path
  | [] => []
  | (name, node) :: entries =>
    samplesAt rules (Path.join path name) name node ++ samplesIn rules path entries

end

mutual

theorem samplesAt_names {base : Path} {name : Text} {node : Node} (h : node.HasFileNames) :
    ∀ path ∈ samplesAt rules base name node, ∃ names,
      (∀ name ∈ names, Path.IsFileName name) ∧ path = joinNames base names := by
  match node with
  | .file content =>
      intro path hpath
      rw [samplesAt] at hpath
      split_ifs at hpath
      · exact ⟨[], nofun, List.mem_singleton.mp hpath⟩
      · cases hpath
  | .link target =>
      intro path hpath
      rw [samplesAt] at hpath
      cases hpath
  | .folder entries =>
      intro path hpath
      rw [samplesAt] at hpath
      split_ifs at hpath
      · cases hpath
      · cases h with
        | folder hnames hnodes => exact samplesIn_names hnames hnodes path hpath

theorem samplesIn_names {base : Path} {entries : List (Text × Node)}
    (hnames : ∀ entry ∈ entries, Path.IsFileName entry.1)
    (hnodes : ∀ entry ∈ entries, entry.2.HasFileNames) :
    ∀ path ∈ samplesIn rules base entries, ∃ names,
      (∀ name ∈ names, Path.IsFileName name) ∧ path = joinNames base names := by
  match entries with
  | [] =>
      intro path hpath
      rw [samplesIn] at hpath
      cases hpath
  | (name, node) :: entries =>
      intro path hpath
      rw [samplesIn] at hpath
      rcases List.mem_append.mp hpath with hpath | hpath
      · obtain ⟨names, hall, rfl⟩ := samplesAt_names (hnodes _ List.mem_cons_self) path hpath
        refine ⟨name :: names, fun other hother => ?_, rfl⟩
        rcases List.mem_cons.mp hother with rfl | hother
        · exact hnames _ List.mem_cons_self
        · exact hall other hother
      · exact samplesIn_names (fun entry hentry => hnames entry (List.mem_cons_of_mem _ hentry))
          (fun entry hentry => hnodes entry (List.mem_cons_of_mem _ hentry)) path hpath

end

theorem samplesIn_eq_of_components (h : (folder entries).HasFileNames) {a b : Path}
    (ha : a ∈ samplesIn rules base entries) (hb : b ∈ samplesIn rules base entries)
    (hcomponents : Path.components a = Path.components b) : a = b := by
  cases h with
  | folder hnames hnodes =>
      obtain ⟨names, hall, rfl⟩ := samplesIn_names hnames hnodes a ha
      obtain ⟨others, hall', rfl⟩ := samplesIn_names hnames hnodes b hb
      rw [joinNames_injective hall hall' hcomponents]

theorem samplesIn_eq_flatMap (rules : DialectRules) (base : Path) (entries : List (Text × Node)) :
    samplesIn rules base entries =
      entries.flatMap fun entry => samplesAt rules (Path.join base entry.1) entry.1 entry.2 := by
  induction entries with
  | nil => rw [samplesIn, List.flatMap_nil]
  | cons entry entries ih => rw [samplesIn, ih, List.flatMap_cons]

theorem samplesIn_of_not_folder (h : node.isFolder = false) (rules : DialectRules) (base : Path) :
    samplesIn rules base node.entries = [] := by
  rw [samplesIn_eq_flatMap]
  cases node with
  | file | link => rfl
  | folder entries => cases h

/-- What is found in a tree are its candidates, by their paths. -/
theorem mem_samplesIn_iff (h : node.HasDistinctNames) :
    path ∈ samplesIn rules base node.entries ↔
      ∃ folders name, node.IsCandidate rules folders name ∧
        path = joinNames base (folders ++ [name]) := by
  induction h generalizing base with
  | file | link =>
      rw [samplesIn_of_not_folder rfl]
      refine iff_of_false List.not_mem_nil ?_
      rintro ⟨folders, name, hcandidate, -⟩
      cases hcandidate.real [] List.nil_prefix
  | @folder entries hdistinct _ ih =>
      -- The entry that yields a path is known by the first name of the way.
      rw [Node.entries, samplesIn_eq_flatMap, List.mem_flatMap]
      constructor
      · rintro ⟨⟨name, child⟩, hmem, hpath⟩
        have hchild := (child?_eq_some_iff hdistinct).mpr hmem
        cases child with
        | file content =>
            rw [samplesAt] at hpath
            split_ifs at hpath with haccepted
            · exact ⟨[], name, isCandidate_nil_iff.mpr ⟨⟨content, hchild⟩, haccepted⟩,
                List.mem_singleton.mp hpath⟩
            · cases hpath
        | link target =>
            rw [samplesAt] at hpath
            cases hpath
        | folder inner =>
            rw [samplesAt] at hpath
            split_ifs at hpath with hskipped
            · cases hpath
            · obtain ⟨folders, last, hcandidate, rfl⟩ := (ih _ hmem).mp hpath
              exact ⟨name :: folders, last,
                isCandidate_cons_iff.mpr ⟨hskipped, _, hchild, hcandidate⟩, rfl⟩
      · rintro ⟨folders, last, hcandidate, rfl⟩
        cases folders with
        | nil =>
            obtain ⟨⟨content, hchild⟩, haccepted⟩ := isCandidate_nil_iff.mp hcandidate
            refine ⟨_, mem_of_child? hchild, ?_⟩
            rw [samplesAt, if_pos haccepted]
            exact List.mem_singleton_self _
        | cons first folders =>
            obtain ⟨hfirst, child, hchild, hbelow⟩ := isCandidate_cons_iff.mp hcandidate
            have hmem := mem_of_child? hchild
            obtain ⟨inner, rfl⟩ := surface_eq_folder_iff.mp (hbelow.real [] List.nil_prefix)
            refine ⟨_, hmem, ?_⟩
            rw [samplesAt, if_neg hfirst]
            exact (ih _ hmem).mpr ⟨folders, last, hbelow, rfl⟩

/-! ### Each once -/

/-- Paths below the entries of a folder are different if those below each entry are. -/
theorem nodup_flatMap_entries {below : Text × Node → List Path}
    (hfile : ∀ entry ∈ entries, Path.IsFileName entry.1) (hdistinct : (entries.map Prod.fst).Nodup)
    (hnodup : ∀ entry ∈ entries, (below entry).Nodup)
    (hnames : ∀ entry ∈ entries, ∀ path ∈ below entry, ∃ names,
      (∀ name ∈ names, Path.IsFileName name) ∧ path = joinNames (Path.join base entry.1) names) :
    (entries.flatMap below).Nodup := by
  refine List.nodup_flatMap.mpr ⟨hnodup, ?_⟩
  refine (List.pairwise_map.mp hdistinct).imp_of_mem fun {a b} ha hb hne path hin hin' => ?_
  obtain ⟨names, hall, rfl⟩ := hnames a ha path hin
  obtain ⟨others, hall', heq⟩ := hnames b hb _ hin'
  have hcomponents : Path.components (joinNames base (a.1 :: names)) =
      Path.components (joinNames base (b.1 :: others)) := congrArg Path.components heq
  have hsame := joinNames_injective (List.forall_mem_cons.mpr ⟨hfile a ha, hall⟩)
    (List.forall_mem_cons.mpr ⟨hfile b hb, hall'⟩) hcomponents
  exact hne (List.cons.inj hsame).1

theorem samplesIn_nodup (hnames : node.HasFileNames) (hdistinct : node.HasDistinctNames) :
    (samplesIn rules base node.entries).Nodup := by
  induction hdistinct generalizing base with
  | file | link =>
      rw [samplesIn_of_not_folder rfl]
      exact List.nodup_nil
  | @folder entries hdistinct _ ih =>
      cases hnames with
      | folder hfile hnodes =>
          rw [Node.entries, samplesIn_eq_flatMap]
          refine nodup_flatMap_entries hfile hdistinct ?_ fun entry hentry =>
            samplesAt_names (hnodes entry hentry)
          rintro ⟨name, child⟩ hmem
          cases child with
          | file content =>
              rw [samplesAt]
              split_ifs
              · exact List.nodup_singleton _
              · exact List.nodup_nil
          | link target =>
              rw [samplesAt]
              exact List.nodup_nil
          | folder inner =>
              rw [samplesAt]
              split_ifs
              · exact List.nodup_nil
              · exact ih _ hmem (hnodes _ hmem)

/-- Where the same stands everywhere, the same files are found. -/
theorem samplesIn_perm_of_look {other : Node} (hnames : node.HasFileNames)
    (hdistinct : node.HasDistinctNames) (hnames' : other.HasFileNames)
    (hdistinct' : other.HasDistinctNames)
    (hsame : ∀ location, other.look location = node.look location) (rules : DialectRules)
    (base : Path) :
    (samplesIn rules base other.entries).Perm (samplesIn rules base node.entries) := by
  have hcandidate : ∀ folders name,
      other.IsCandidate rules folders name ↔ node.IsCandidate rules folders name := by
    intro folders name
    rw [isCandidate_iff, isCandidate_iff]
    simp only [hsame]
  refine (List.perm_ext_iff_of_nodup (samplesIn_nodup hnames' hdistinct')
    (samplesIn_nodup hnames hdistinct)).mpr fun path => ?_
  rw [mem_samplesIn_iff hdistinct', mem_samplesIn_iff hdistinct]
  simp only [hcandidate]

end Node

/-- Samples of one folder are sorted in one way. -/
theorem Node.isAscending_samples {entries : List (Text × Node)}
    (hnames : (folder entries).HasFileNames) (hdistinct : (folder entries).HasDistinctNames)
    (rules : DialectRules) (base : Path) :
    Path.IsAscending ((samplesIn rules base entries).mergeSort Path.le) :=
  Path.isAscending_mergeSort (samplesIn_nodup hnames hdistinct)
    fun _ ha _ hb => samplesIn_eq_of_components hnames ha hb

end SampleHarvest
