import SampleHarvest.Harvest.Publication
import SampleHarvest.Proofs.Disk.Write
import SampleHarvest.Proofs.Path.Join

/-!
# Output roots

An output root is fresh if no files and links are in it, whether it is there or still to be made
below another folder. Every artifact that is written into one has a file of its own, which holds the
document that was written to it last.
-/

namespace SampleHarvest

/-- The names that lead from the output root to the document of an artifact. -/
def Artifact.names (artifact : Artifact) : Location :=
  Disk.namesOf (Text.splitOn '/' artifact.path)

/-- The names tell as much about a contained path as its components. -/
theorem Artifact.names_eq_iff {a b : Artifact} (ha : a.target.isContained)
    (hb : b.target.isContained) :
    a.names = b.names ↔ Path.components a.path = Path.components b.path := by
  rw [Artifact.path, Artifact.path, Target.components_eq ha, Target.components_eq hb,
    List.map_inj_right fun _ _ => Path.Component.name.inj]
  rfl

def lastNamed? (written : List Artifact) (names : Location) : Option Artifact :=
  written.reverse.find? fun artifact => artifact.names = names

theorem lastNamed?_append (written later : List Artifact) (names : Location) :
    lastNamed? (written ++ later) names =
      (lastNamed? later names).or (lastNamed? written names) := by
  rw [lastNamed?, List.reverse_append, List.find?_append, lastNamed?, lastNamed?]

theorem lastNamed?_concat (written : List Artifact) (artifact : Artifact) (names : Location) :
    lastNamed? (written ++ [artifact]) names =
      if artifact.names = names then some artifact else lastNamed? written names := by
  rw [lastNamed?_append, lastNamed?, List.reverse_singleton, List.find?_singleton]
  split_ifs <;> simp_all

theorem lastNamed?_isSome {written : List Artifact} {artifact : Artifact} (h : artifact ∈ written) :
    (lastNamed? written artifact.names).isSome := by
  rw [lastNamed?, List.find?_isSome]
  exact ⟨artifact, List.mem_reverse.mpr h, by simp⟩

theorem lastNamed?_eq_some {written : List Artifact} {names : Location} {last : Artifact}
    (h : lastNamed? written names = some last) :
    last.names = names ∧ ∃ front back, written = front ++ last :: back ∧
      ∀ other ∈ back, other.names ≠ names := by
  obtain ⟨hnames, back, front, hwritten, hback⟩ := List.find?_eq_some_iff_append.mp h
  refine ⟨by simpa using hnames, front.reverse, back.reverse, ?_, fun other hother => ?_⟩
  · rw [List.reverse_eq_iff.mp hwritten, List.reverse_append, List.reverse_cons, List.append_assoc]
    rfl
  · simpa using hback other (List.mem_reverse.mp hother)

namespace Disk

variable {disk disk' : Disk} {root : Path} {base : Location} {back : List Text}

/-- The output root lies some names below a folder, and no links are on the way or in it. -/
structure IsAbove (disk : Disk) (root : Path) (base : Location) (back : List Text) : Prop where
  leads : ∃ front, Path.baseParts root = front ++ back ∧
    LeadsTo disk.root base maxLinks (disk.start root) front
  up : (".." : Text) ∉ back
  links : ∀ below target, disk.root.look (base ++ (namesOf back).take 1 ++ below) ≠ .link target

/-- The output root is a folder in which no files and links are, or it can be made below a folder in
which its first name leads to nothing else. -/
def IsFresh (disk : Disk) (root : Path) : Prop :=
  ∃ base back, disk.IsAbove root base back ∧
    ∀ below content, disk.root.look (base ++ (namesOf back).take 1 ++ below) ≠ .file content

/-- The output root is a folder without links, and holds the document of the last artifact for every
file. -/
structure Publishes (disk : Disk) (root : Path) (written : List Artifact) (base : Location) :
    Prop where
  leads : LeadsTo disk.root base maxLinks (disk.start root) (Path.baseParts root)
  links : ∀ below target, disk.root.look (base ++ below) ≠ .link target
  files : ∀ names last, lastNamed? written names = some last →
    disk.root.look (base ++ names) = .file (.bytes (Utf8.encode last.content))
  contained : ∀ artifact ∈ written, artifact.target.isContained
  paths : ∀ artifact ∈ written,
    Disk.parts (Path.join root artifact.path) =
      .ok (Text.splitOn '/' (Path.join root artifact.path)) ∧
    ∀ part ∈ artifact.names, IsName part

/-- What is known of an output root into which these artifacts were written. -/
def HasWritten (disk : Disk) (root : Path) (written : List Artifact) : Prop :=
  (written = [] ∧ ∃ base back, disk.IsAbove root base back) ∨
    ∃ base, disk.Publishes root written base

/-! ### Following the path of an artifact -/

theorem start_join {rest : Path} (h : ¬Path.isAbsolute rest) (disk : Disk) :
    disk.start (Path.join root rest) = disk.start root := by
  rw [start, start, Path.isAbsolute_join h]

theorem prefix_of_prefix_names {names front : Location} (hne : front ≠ [])
    (h : front <+: names ++ location) : ∃ below, front = names.take 1 ++ below := by
  cases names with
  | nil => exact ⟨front, rfl⟩
  | cons name names =>
      obtain ⟨first, front, rfl⟩ := List.exists_cons_of_ne_nil hne
      rw [List.cons_append] at h
      exact ⟨front, by rw [(List.cons_prefix_cons.mp h).1]; rfl⟩

/-- An artifact is written at its names below the output root, over a file or over nothing. -/
theorem IsAbove.filePlace (h : disk.IsAbove root base back) {target : Target}
    (hcontained : target.isContained) {folder : Location} {name : Text}
    (hplace : disk.filePlace (Path.join root target.documentPath) = .ok (folder, name)) :
    let parts := back ++ Text.splitOn '/' target.documentPath
    folder ++ [name] = base ++ namesOf parts ∧ disk.root.look folder = .folder ∧
      (disk.root.look (folder ++ [name]) = .nothing ∨
        ∃ content, disk.root.look (folder ++ [name]) = .file content) ∧
      (∀ part ∈ namesOf parts, IsName part) ∧
      Disk.parts (Path.join root target.documentPath) =
        .ok (Text.splitOn '/' (Path.join root target.documentPath)) := by
  intro parts
  obtain ⟨front, hfront, hleads⟩ := h.leads
  have hrelative := Target.not_isAbsolute hcontained
  obtain ⟨hparts, hwalk⟩ := filePlace_ok hplace
  rw [start_join hrelative, Path.splitOn_join hrelative, hfront, List.append_assoc] at hwalk
  obtain ⟨left, hleft⟩ := hleads.walk_append parts
  rw [hleft] at hwalk
  have hup : (".." : Text) ∉ parts := fun hmem =>
    (List.mem_append.mp hmem).elim h.up (Target.up_not_mem hcontained)
  have hlinks : ∀ front, front ≠ [] → front <+: namesOf parts →
      ∀ link, disk.root.look (base ++ front) ≠ .link link := by
    intro front hne hprefix link
    rw [namesOf_append] at hprefix
    obtain ⟨below, rfl⟩ := prefix_of_prefix_names hne hprefix
    rw [← List.append_assoc]
    exact h.links below link
  rcases hwalk with ⟨hvacant, -⟩ | ⟨content, hpresent⟩
  · obtain ⟨hends, hnames⟩ := (arrives_of_walk hvacant).endsAt hup hleads.look hlinks
    generalize hlocation : base ++ namesOf parts = location at hends
    cases hends with
    | vacant hfolder hnothing => exact ⟨rfl, hfolder, Or.inl hnothing, hnames, hparts⟩
  · obtain ⟨hends, hnames⟩ := (arrives_of_walk hpresent).endsAt hup hleads.look hlinks
    generalize hlocation : base ++ namesOf parts = location at hends
    cases hends with
    | present hget =>
        have hlook := Node.look_eq_file_iff.mpr hget
        have hfolder := Node.look_above (by rw [hlook]; nofun) (List.cons_ne_nil name [])
        exact ⟨rfl, hfolder, Or.inr ⟨content, hlook⟩, hnames, hparts⟩

/-- What stands on the disk after an artifact is written, and what of it is new. -/
theorem IsAbove.write (h : disk.IsAbove root base back) {target : Target}
    (hcontained : target.isContained) {text : Text}
    (hwrite : disk.writeText (Path.join root target.documentPath) text = .ok disk') :
    let parts := back ++ Text.splitOn '/' target.documentPath
    (∀ location, disk'.root.look location =
      if location = base ++ namesOf parts then .file (.bytes (Utf8.encode text))
      else disk.root.look location) ∧
    Keeps disk.root disk'.root ∧ disk'.workingFolder = disk.workingFolder ∧
    (∀ part ∈ namesOf parts, IsName part) ∧
    Disk.parts (Path.join root target.documentPath) =
      .ok (Text.splitOn '/' (Path.join root target.documentPath)) := by
  intro parts
  obtain ⟨folder, name, hplace, rfl⟩ := writeText_ok hwrite
  obtain ⟨hlocation, hfolder, hold, hnames, hparts⟩ := h.filePlace hcontained hplace
  have hnew : ∀ rest, rest ≠ [] →
      (Node.file (.bytes (Utf8.encode text))).look rest = .nothing := Node.look_file_below
  have hlook := Node.look_put hfolder (not_folder_of_file hold) hnew
  exact ⟨hlocation ▸ hlook, put_keeps hold hnew, rfl, hnames, hparts⟩

/-! ### Writing artifacts -/

theorem namesOf_documentPath_ne_nil {target : Target} (h : target.isContained) :
    namesOf (Text.splitOn '/' target.documentPath) ≠ [] := by
  obtain ⟨front, last, hsplit, hlast⟩ := Target.exists_fileName h
  rw [hsplit, namesOf_append, namesOf_cons_name hlast]
  exact List.append_ne_nil_of_right_ne_nil _ (List.cons_ne_nil _ _)

theorem namesOf_take_append (back : List Text) (below : Location) :
    ∃ rest, namesOf back ++ below = (namesOf back).take 1 ++ rest :=
  ⟨(namesOf back).drop 1 ++ below, by rw [← List.append_assoc, List.take_append_drop]⟩

/-- After a write the output root is a folder, and the file of the artifact holds its document. -/
theorem IsAbove.publishes (h : disk.IsAbove root base back) {written : List Artifact}
    {artifact : Artifact} (hcontained : artifact.target.isContained)
    (hwrite : disk.writeText (Path.join root artifact.path) artifact.content = .ok disk')
    (hfiles : ∀ names last, lastNamed? written names = some last →
      disk.root.look (base ++ namesOf back ++ names) = .file (.bytes (Utf8.encode last.content)))
    (hcontained' : ∀ artifact ∈ written, artifact.target.isContained)
    (hpaths : ∀ artifact ∈ written,
      Disk.parts (Path.join root artifact.path) =
        .ok (Text.splitOn '/' (Path.join root artifact.path)) ∧
      ∀ part ∈ artifact.names, IsName part) :
    disk'.Publishes root (written ++ [artifact]) (base ++ namesOf back) := by
  obtain ⟨hlook, hkeeps, hworking, hnames, hparts⟩ := h.write hcontained hwrite
  have heq : namesOf (Text.splitOn '/' artifact.target.documentPath) = artifact.names := rfl
  have hne : artifact.names ≠ [] := namesOf_documentPath_ne_nil hcontained
  rw [namesOf_append, ← List.append_assoc, heq] at hlook
  rw [namesOf_append, heq] at hnames
  have hfile : disk'.root.look (base ++ namesOf back ++ artifact.names) =
      .file (.bytes (Utf8.encode artifact.content)) := by
    rw [hlook, if_pos rfl]
  constructor
  case leads =>
    obtain ⟨front, hfront, hleads⟩ := h.leads
    have hfolder := Node.look_above (by rw [hfile]; nofun) hne
    rw [hfront, start, hworking]
    exact (hleads.keeps hkeeps).append fun left =>
      leadsTo_names left (fun part hmem => hnames part (List.mem_append_left _ hmem)) hfolder
  case links =>
    intro below link
    rw [hlook]
    split_ifs
    · nofun
    · obtain ⟨rest, hrest⟩ := namesOf_take_append back below
      rw [List.append_assoc, hrest, ← List.append_assoc]
      exact h.links rest link
  case files =>
    intro names last hlast
    rw [lastNamed?_concat] at hlast
    split_ifs at hlast with hsame
    · cases hlast
      rw [← hsame]
      exact hfile
    · rw [hlook, if_neg fun heq => hsame (List.append_cancel_left heq).symm]
      exact hfiles names last hlast
  case contained =>
    intro other hother
    rcases List.mem_append.mp hother with hother | hother
    · exact hcontained' other hother
    · rw [List.mem_singleton.mp hother]
      exact hcontained
  case paths =>
    intro other hother
    rcases List.mem_append.mp hother with hother | hother
    · exact hpaths other hother
    · rw [List.mem_singleton.mp hother]
      exact ⟨hparts, fun part hmem => hnames part (List.mem_append_right _ hmem)⟩

theorem Publishes.isAbove {written : List Artifact} (h : disk.Publishes root written base) :
    disk.IsAbove root base [] where
  leads := ⟨Path.baseParts root, (List.append_nil _).symm, h.leads⟩
  up := List.not_mem_nil
  links below link := by
    rw [namesOf, List.filter_nil, List.take_nil, List.append_nil]
    exact h.links below link

theorem HasWritten.write {written : List Artifact} (h : disk.HasWritten root written)
    {artifact : Artifact} (hcontained : artifact.target.isContained)
    (hwrite : disk.writeText (Path.join root artifact.path) artifact.content = .ok disk') :
    disk'.HasWritten root (written ++ [artifact]) := by
  rcases h with ⟨rfl, base, back, habove⟩ | ⟨base, hpublishes⟩
  · exact Or.inr ⟨_, habove.publishes hcontained hwrite nofun nofun nofun⟩
  · refine Or.inr ⟨_, hpublishes.isAbove.publishes hcontained hwrite (fun names last hlast => ?_)
      hpublishes.contained hpublishes.paths⟩
    rw [namesOf, List.filter_nil, List.append_nil]
    exact hpublishes.files names last hlast

end Disk

end SampleHarvest
