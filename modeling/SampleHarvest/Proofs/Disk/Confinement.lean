import SampleHarvest.Proofs.Disk.Output
import SampleHarvest.Proofs.Path.Containment

/-!
# Writing below an output root

The path of a contained target first leads to the output root and then down from it. So as long as
there are no links in the root, what is made or written for the target is inside the root. A root
that is not there is made first, and with it the folders that are missing on the way.

The root may be reached over links and dots, and need not be there.
-/

namespace SampleHarvest

namespace Disk

/-- An output root leads to the folder at a location. -/
def RootAt (disk : Disk) (root : Path) (base : Location) : Prop :=
  LeadsTo disk.root base maxLinks (disk.start root) (Path.baseParts root)

/-- A location is inside the folder that an output root leads to. -/
def IsInside (disk : Disk) (root : Path) (location : Location) : Prop :=
  ∃ base below, disk.RootAt root base ∧ below ≠ [] ∧ location = base ++ below

/-- Some leading parts of an output root lead to the folder at a location. -/
def IsOnTheWay (disk : Disk) (root : Path) (location : Location) : Prop :=
  ∃ front, front <+: Path.baseParts root ∧
    LeadsTo disk.root location maxLinks (disk.start root) front

/-- There are no links in the folder that an output root leads to. -/
def NoLinksIn (disk : Disk) (root : Path) : Prop :=
  ∀ location, disk.IsInside root location → ∀ target, disk.root.look location ≠ .link target

/-- A disk is only changed in an output root. -/
structure Confined (old new : Disk) (root : Path) : Prop where
  keeps : Keeps old.root new.root
  links : ∀ location target, new.root.look location = .link target →
    old.root.look location = .link target
  workingFolder : new.workingFolder = old.workingFolder
  /-- Unless links in the root lead out of it, everything outside of it stays, but for folders that
  are missing on the way to a root that is not there. -/
  outside : new.NoLinksIn root → ∀ location, ¬new.IsInside root location →
    new.root.look location = old.root.look location ∨
      (∀ base, ¬old.RootAt root base) ∧ old.root.look location = .nothing ∧
        new.root.look location = .folder ∧ new.IsOnTheWay root location

variable {old new disk disk' : Disk} {root : Path} {base location : Location}

/-! ### Disks that keep folders and links -/

theorem RootAt.keeps (hkeeps : Keeps old.root new.root)
    (hworking : new.workingFolder = old.workingFolder) (h : old.RootAt root base) :
    new.RootAt root base := by
  unfold RootAt start at h ⊢
  rw [hworking]
  exact LeadsTo.keeps hkeeps h

theorem IsInside.keeps (hkeeps : Keeps old.root new.root)
    (hworking : new.workingFolder = old.workingFolder) (h : old.IsInside root location) :
    new.IsInside root location := by
  obtain ⟨base, below, hroot, hbelow, rfl⟩ := h
  exact ⟨base, below, hroot.keeps hkeeps hworking, hbelow, rfl⟩

theorem IsOnTheWay.keeps (hkeeps : Keeps old.root new.root)
    (hworking : new.workingFolder = old.workingFolder) (h : old.IsOnTheWay root location) :
    new.IsOnTheWay root location := by
  obtain ⟨front, hfront, hleads⟩ := h
  refine ⟨front, hfront, ?_⟩
  unfold start at hleads ⊢
  rw [hworking]
  exact hleads.keeps hkeeps

/-- Links that are not there later are not there before. -/
theorem NoLinksIn.keeps (hkeeps : Keeps old.root new.root)
    (hworking : new.workingFolder = old.workingFolder) (h : new.NoLinksIn root) :
    old.NoLinksIn root := by
  intro location hinside target hlink
  exact h location (hinside.keeps hkeeps hworking) target ((hkeeps location).2 target hlink)

theorem Confined.refl (disk : Disk) (root : Path) : Confined disk disk root where
  keeps := fun _ => ⟨id, fun _ => id⟩
  links := fun _ _ => id
  workingFolder := rfl
  outside := fun _ _ _ => Or.inl rfl

theorem Confined.trans {between : Disk} (h : Confined old between root)
    (h' : Confined between new root) : Confined old new root where
  keeps := h.keeps.trans h'.keeps
  links := fun location target hlink => h.links location target (h'.links location target hlink)
  workingFolder := h'.workingFolder.trans h.workingFolder
  outside := by
    intro hlinks location houtside
    have hbetween : ¬between.IsInside root location :=
      fun hinside => houtside (hinside.keeps h'.keeps h'.workingFolder)
    have hfirst := h.outside (hlinks.keeps h'.keeps h'.workingFolder) location hbetween
    rcases h'.outside hlinks location houtside with hsame | ⟨hnone, hnothing, hfolder, hway⟩
    · rw [hsame]
      refine hfirst.imp_right fun ⟨hnone, hnothing, hfolder, hway⟩ => ?_
      exact ⟨hnone, hnothing, hfolder, hway.keeps h'.keeps h'.workingFolder⟩
    · rcases hfirst with hsame | ⟨-, -, hbefore, -⟩
      · refine Or.inr ⟨fun base hroot => ?_, hsame ▸ hnothing, hfolder, hway⟩
        exact hnone base (hroot.keeps h.keeps h.workingFolder)
      · rw [hnothing] at hbefore
        cases hbefore

/-- A root that is there is the only thing that changes. -/
theorem Confined.look_eq (h : Confined old new root) (hlinks : new.NoLinksIn root)
    (hroot : old.RootAt root base) (houtside : ¬new.IsInside root location) :
    new.root.look location = old.root.look location :=
  (h.outside hlinks location houtside).resolve_right fun hmade => hmade.1 base hroot

/-! ### Through the root -/

section Arriving

variable {tree tree' : Node} {follows : Bool} {links : Nat} {here folder : Location}
  {name first : Text} {front back rest : List Text} {place : Place}

/-- What stands at a place, or would stand there, stands in a folder. -/
def Place.IsInFolder (tree : Node) : Place → Prop
  | .present _ _ => True
  | .vacant folder _ => tree.look folder = .folder

/-- From a folder on, parts lead through folders. -/
theorem Arrives.isInFolder (hhere : tree.look here = .folder)
    (h : Arrives tree follows links here front place) : place.IsInFolder tree := by
  induction h with
  | here | file | stop => trivial
  | idle _ _ ih => exact ih hhere
  | up _ ih => exact ih (Node.look_dropLast hhere)
  | absent => exact hhere
  | down _ hlook _ ih => exact ih hlook
  | link _ _ _ _ ih =>
      apply ih
      split_ifs
      · exact Node.look_top hhere
      · exact hhere

theorem Arrives.look_here (hfirst : ¬Path.isIdlePart first) (hup : first ≠ "..")
    (hplace : place.IsInFolder tree)
    (h : Arrives tree follows links here (first :: rest) place) : tree.look here = .folder := by
  have habove : tree.look (here ++ [first]) ≠ .nothing → tree.look here = .folder :=
    fun hlook => Node.look_above hlook (List.cons_ne_nil first [])
  cases h with
  | idle hidle => exact absurd hidle hfirst
  | up => exact absurd rfl hup
  | absent => exact hplace
  | down _ hlook | file _ hlook | stop _ hlook | link _ hlook => exact habove (by rw [hlook]; nofun)

/-- Parts that arrive somewhere lead to a folder first, if a name follows them. -/
theorem Arrives.split (hfirst : ¬Path.isIdlePart first) (hup : first ≠ "..")
    (hplace : place.IsInFolder tree)
    (h : Arrives tree follows links here (front ++ first :: rest) place) :
    ∃ base left, LeadsTo tree base links here front ∧
      Arrives tree follows left base (first :: rest) place := by
  -- Before the name no part can be the last one, so each leads on.
  have hempty : ∀ more : List Text, ¬(more ++ first :: rest).all List.isEmpty := by
    intro more hall
    have hmem := List.all_eq_true.mp hall first (List.mem_append_right more List.mem_cons_self)
    exact hfirst (by rw [Path.isIdlePart, hmem, Bool.true_or])
  have hdone : ∀ {links here parts place}, place.IsInFolder tree → first :: rest = parts →
      Arrives tree follows links here parts place →
      ∃ base left, LeadsTo tree base links here [] ∧
        Arrives tree follows left base (first :: rest) place := by
    rintro links here _ place hplace rfl h
    exact ⟨here, links, .done (h.look_here hfirst hup hplace), h⟩
  generalize hparts : front ++ first :: rest = parts at h
  induction h generalizing front with
  | here => simp at hparts
  | idle hidle hrest ih =>
      cases front with
      | nil => exact hdone hplace hparts (.idle hidle hrest)
      | cons part front =>
          obtain ⟨rfl, rfl⟩ := List.cons.inj hparts
          obtain ⟨base, left, hleads, harrives⟩ := ih hplace rfl
          exact ⟨base, left, .idle hidle hleads, harrives⟩
  | up hrest ih =>
      cases front with
      | nil => exact hdone hplace hparts (.up hrest)
      | cons part front =>
          obtain ⟨rfl, rfl⟩ := List.cons.inj hparts
          obtain ⟨base, left, hleads, harrives⟩ := ih hplace rfl
          exact ⟨base, left, .up hleads, harrives⟩
  | absent hname hlook hrest =>
      cases front with
      | nil => exact hdone hplace hparts (.absent hname hlook hrest)
      | cons part front =>
          obtain ⟨rfl, rfl⟩ := List.cons.inj hparts
          exact absurd hrest (hempty front)
  | down hname hlook hrest ih =>
      cases front with
      | nil => exact hdone hplace hparts (.down hname hlook hrest)
      | cons part front =>
          obtain ⟨rfl, rfl⟩ := List.cons.inj hparts
          obtain ⟨base, left, hleads, harrives⟩ := ih hplace rfl
          exact ⟨base, left, .down hname hlook hleads, harrives⟩
  | file hname hlook =>
      cases front with
      | nil => exact hdone hplace hparts (.file hname hlook)
      | cons part front => simp at hparts
  | stop hname hlook hrest hfollows =>
      cases front with
      | nil => exact hdone hplace hparts (.stop hname hlook hrest hfollows)
      | cons part front =>
          obtain ⟨rfl, rfl⟩ := List.cons.inj hparts
          exact absurd hrest (hempty front)
  | link hname hlook hgoes hrest ih =>
      cases front with
      | nil => exact hdone hplace hparts (.link hname hlook hgoes hrest)
      | cons part front =>
          obtain ⟨rfl, rfl⟩ := List.cons.inj hparts
          obtain ⟨base, left, hleads, harrives⟩ := ih hplace (List.append_assoc _ _ _)
          exact ⟨base, left, .link hname hlook hleads, harrives⟩

/-- Leading parts of parts that lead to a folder do not end where there is room. -/
theorem LeadsTo.not_vacant (h : LeadsTo tree location links here (front ++ back)) :
    ¬Arrives tree follows links here front (.vacant folder name) := by
  intro harrives
  generalize hvacant : Place.vacant folder name = place at harrives
  induction harrives with
  | here | file | stop => cases hvacant
  | idle hidle _ ih =>
      cases h with
      | idle _ hrest => exact ih hrest hvacant
      | up => exact absurd hidle (by decide)
      | down hname | link hname => exact hname.1 hidle
  | up _ ih =>
      cases h with
      | idle hidle => exact absurd hidle (by decide)
      | up hrest => exact ih hrest hvacant
      | down hname | link hname => exact hname.2.1 rfl
  | absent hname hlook =>
      cases h with
      | idle hidle => exact hname.1 hidle
      | up => exact hname.2.1 rfl
      | down _ hfolder => rw [hlook] at hfolder; cases hfolder
      | link _ hlink => rw [hlook] at hlink; cases hlink
  | down hname hlook _ ih =>
      cases h with
      | idle hidle => exact hname.1 hidle
      | up => exact hname.2.1 rfl
      | down _ _ hrest => exact ih hrest hvacant
      | link _ hlink => rw [hlook] at hlink; cases hlink
  | link hname hlook _ _ ih =>
      cases h with
      | idle hidle => exact hname.1 hidle
      | up => exact hname.2.1 rfl
      | down _ hfolder => rw [hlook] at hfolder; cases hfolder
      | link _ hlink hrest =>
          rw [hlook] at hlink
          cases hlink
          exact ih ((List.append_assoc _ _ back).symm ▸ hrest) hvacant

end Arriving

/-! ### Making and writing -/

section Target

variable {target : Target}

/-- Below an output root without links, parts of a contained path arrive inside the root. -/
theorem NoLinksIn.endsAt (hlinks : disk.NoLinksIn root) (hcontained : target.isContained)
    {follows : Bool} {parts : List Text} {place : Place} (hparts : parts ≠ [])
    (hleading : parts <+: Text.splitOn '/' target.documentPath)
    (h : Arrives disk.root follows maxLinks (disk.start root) (Path.baseParts root ++ parts) place)
    (hplace : place.IsInFolder disk.root) :
    ∃ base, disk.RootAt root base ∧ namesOf parts ≠ [] ∧
      EndsAt disk.root (base ++ namesOf parts) place := by
  obtain ⟨first, more, hsplit, hfirst⟩ := Target.exists_first hcontained
  obtain ⟨first', rest, rfl⟩ := List.exists_cons_of_ne_nil hparts
  obtain rfl : first' = first := by
    rw [hsplit] at hleading
    exact (List.cons_prefix_cons.mp hleading).1
  have hup : (".." : Text) ∉ first' :: rest := fun hmem =>
    Target.up_not_mem hcontained (hleading.subset hmem)
  obtain ⟨base, left, hleads, harrives⟩ :=
    h.split hfirst (fun heq => hup (heq ▸ List.mem_cons_self)) hplace
  obtain ⟨hends, -⟩ := harrives.endsAt hup hleads.look fun front hne _ =>
    hlinks (base ++ front) ⟨base, front, hleads, hne, rfl⟩
  refine ⟨base, hleads, ?_, hends⟩
  rw [namesOf_cons_name hfirst]
  exact List.cons_ne_nil _ _

/-- Something that is put inside an output root, or is a folder on the way to one that is not there,
is all that changes. -/
theorem Confined.put {folder : Location} {name : Text} {node : Node}
    (hold : disk.root.look (folder ++ [name]) = .nothing ∨
      ∃ content, disk.root.look (folder ++ [name]) = .file content)
    (hnew : ∀ rest, rest ≠ [] → node.look rest = .nothing)
    (hlink : ∀ target, node.surface ≠ .link target)
    (hwhere : disk.root.look folder = .folder → disk.NoLinksIn root →
      disk.IsInside root (folder ++ [name]) ∨
      (∀ base, ¬disk.RootAt root base) ∧ disk.root.look (folder ++ [name]) = .nothing ∧
        node.surface = .folder ∧ (disk.put folder name node).IsOnTheWay root (folder ++ [name])) :
    Confined disk (disk.put folder name node) root where
  keeps := put_keeps hold hnew
  links := by
    intro location target h
    change (disk.root.put folder name node).look location = .link target at h
    by_cases hfolder : disk.root.look folder = .folder
    · rw [Node.look_put hfolder (not_folder_of_file hold) hnew] at h
      split_ifs at h
      · exact absurd h (hlink target)
      · exact h
    · rw [Node.put_of_not_folder hfolder] at h
      exact h
  workingFolder := rfl
  outside := by
    intro hlinks location houtside
    have hkeeps : Keeps disk.root (disk.put folder name node).root := put_keeps hold hnew
    by_cases hfolder : disk.root.look folder = .folder
    · have hlook := Node.look_put hfolder (not_folder_of_file hold) hnew
      by_cases hhere : location = folder ++ [name]
      · subst hhere
        rcases hwhere hfolder (hlinks.keeps hkeeps rfl) with
          hinside | ⟨hnone, hnothing, hsurface, hway⟩
        · exact absurd (hinside.keeps hkeeps rfl) houtside
        · exact Or.inr ⟨hnone, hnothing, (hlook _).trans ((if_pos rfl).trans hsurface), hway⟩
      · exact Or.inl ((hlook location).trans (if_neg hhere))
    · left
      show (disk.root.put folder name node).look location = disk.root.look location
      rw [Node.put_of_not_folder hfolder]

theorem parts_of_mem_folderPaths {count : Nat} {path other : Path}
    (h : other ∈ folderPaths count path) :
    Text.splitOn '/' other <+: Text.splitOn '/' path ∧
      Path.isAbsolute other = Path.isAbsolute path := by
  have hend : ∀ {count : Nat} {top : Path}, Path.parent? top = none →
      folderPaths count top = [] := by
    intro count top hnone
    cases count with
    | zero => rfl
    | succ count => rw [folderPaths, hnone]
  induction count generalizing path with
  | zero => cases h
  | succ count ih =>
      rw [folderPaths] at h
      cases hparent : Path.parent? path with
      | none => rw [hparent] at h; cases h
      | some above =>
          rw [hparent] at h
          rcases List.mem_cons.mp h with rfl | h
          · exact ⟨List.prefix_rfl, rfl⟩
          · have hne : above ≠ [] := by
              rintro rfl
              rw [hend (by rfl)] at h
              cases h
            have hroot : above ≠ "/" := by
              rintro rfl
              rw [hend (by rfl)] at h
              cases h
            obtain ⟨hleading, habsolute⟩ := Path.parent?_parts hparent hne hroot
            obtain ⟨hleading', habsolute'⟩ := ih h
            exact ⟨hleading'.trans hleading, habsolute'.trans habsolute⟩

/-- A folder above the document of a contained target is made inside the root or on the way to it. -/
theorem createFolder_confined (hcontained : target.isContained) {path : Path}
    (hleading : Text.splitOn '/' path <+: Text.splitOn '/' (Path.join root target.documentPath))
    (habsolute : Path.isAbsolute path = Path.isAbsolute (Path.join root target.documentPath))
    (h : disk.createFolder path = .ok disk') : Confined disk disk' root := by
  obtain ⟨-, folder, name, harrives, -, rfl⟩ := createFolder_ok h
  have hrelative := Target.not_isAbsolute hcontained
  have hstart : disk.start path = disk.start root := by
    unfold start
    rw [habsolute, Path.isAbsolute_join hrelative]
  rw [Path.splitOn_join hrelative] at hleading
  rw [hstart] at harrives
  have hold := harrives.look
  refine Confined.put (Or.inl hold) Node.look_folder_below nofun fun hfolder hlinks => ?_
  -- The parts end before those of the root do, with them, or behind them.
  by_cases hway : Text.splitOn '/' path <+: Path.baseParts root
  · have hmade : (disk.root.put folder name (.folder [])).look (folder ++ [name]) = .folder :=
      (Node.look_put hfolder (by rw [hold]; nofun) Node.look_folder_below _).trans (if_pos rfl)
    refine Or.inr ⟨fun base hroot => ?_, hold, rfl, _, hway,
      harrives.leadsTo (put_keeps (Or.inl hold) Node.look_folder_below) hmade⟩
    obtain ⟨back, hback⟩ := hway
    unfold RootAt at hroot
    rw [← hback] at hroot
    exact hroot.not_vacant harrives
  · obtain ⟨parts, hparts⟩ := (List.prefix_or_prefix_of_prefix hleading
      (List.prefix_append _ _)).resolve_left hway
    rw [← hparts] at hleading harrives hway
    have hne : parts ≠ [] := by
      rintro rfl
      rw [List.append_nil] at hway
      exact hway List.prefix_rfl
    obtain ⟨base, hroot, hnames, hends⟩ := hlinks.endsAt hcontained hne
      ((List.prefix_append_right_inj _).mp hleading) harrives hfolder
    refine Or.inl ⟨base, namesOf parts, hroot, hnames, ?_⟩
    exact hends.vacant_eq

/-- All folders above the document of a contained target are made inside the root or on the way. -/
theorem createFolders_confined (hcontained : target.isContained) (disk : Disk) :
    Confined disk (disk.createFolders
      ((Path.parent? (Path.join root target.documentPath)).getD [])).1 root := by
  cases hparent : Path.parent? (Path.join root target.documentPath) with
  | none => exact .refl disk root
  | some above =>
      refine createChain_induction (R := fun old new => Confined old new root)
        (fun disk => .refl disk root) Confined.trans ?_ disk
      intro path hmem a b hmade
      have hall : path ∈ folderPaths (above.length + 2) (Path.join root target.documentPath) := by
        rw [folderPaths, hparent]
        exact List.mem_cons_of_mem _ hmem
      obtain ⟨hleading, habsolute⟩ := parts_of_mem_folderPaths hall
      exact createFolder_confined hcontained hleading habsolute hmade

/-- A document is written where the parts of the root and then those of its own path arrive. -/
theorem arrives_of_writeText (hcontained : target.isContained) {text : Text}
    (h : disk.writeText (Path.join root target.documentPath) text = .ok disk') :
    ∃ folder name place, disk' = disk.put folder name (.file (.bytes (Utf8.encode text))) ∧
      Arrives disk.root true maxLinks (disk.start root)
        (Path.baseParts root ++ Text.splitOn '/' target.documentPath) place ∧
      (place = .vacant folder name ∨
        ∃ content, place = .present (folder ++ [name]) (.file content)) := by
  obtain ⟨folder, name, hplace, rfl⟩ := writeText_ok h
  obtain ⟨-, hwalk⟩ := filePlace_ok hplace
  have hrelative := Target.not_isAbsolute hcontained
  rw [start_join hrelative, Path.splitOn_join hrelative] at hwalk
  rcases hwalk with ⟨hvacant, -⟩ | ⟨content, hpresent⟩
  · exact ⟨folder, name, _, rfl, arrives_of_walk hvacant, Or.inl rfl⟩
  · exact ⟨folder, name, _, rfl, arrives_of_walk hpresent, Or.inr ⟨content, rfl⟩⟩

theorem writeText_confined (hcontained : target.isContained) {text : Text}
    (h : disk.writeText (Path.join root target.documentPath) text = .ok disk') :
    Confined disk disk' root := by
  obtain ⟨folder, name, place, rfl, harrives, hplace⟩ := arrives_of_writeText hcontained h
  have hnew : ∀ rest, rest ≠ [] →
      (Node.file (.bytes (Utf8.encode text))).look rest = .nothing := Node.look_file_below
  have hne := Text.splitOn_ne_nil '/' target.documentPath
  rcases hplace with rfl | ⟨content, rfl⟩
  · refine Confined.put (Or.inl harrives.look) hnew nofun fun hfolder hlinks => ?_
    obtain ⟨base, hroot, hnames, hends⟩ :=
      hlinks.endsAt hcontained hne List.prefix_rfl harrives hfolder
    exact Or.inl ⟨base, _, hroot, hnames, hends.vacant_eq⟩
  · have hlook := Node.look_eq_file_iff.mpr harrives.get?
    refine Confined.put (Or.inr ⟨content, hlook⟩) hnew nofun fun _ hlinks => ?_
    obtain ⟨base, hroot, hnames, hends⟩ :=
      hlinks.endsAt hcontained hne List.prefix_rfl harrives trivial
    exact Or.inl ⟨base, _, hroot, hnames, hends.present_eq⟩

/-- If a document can be written, the root leads to a folder. -/
theorem exists_rootAt_of_writeText (hcontained : target.isContained) {text : Text}
    (hworking : disk.root.look disk.workingFolder = .folder)
    (h : disk.writeText (Path.join root target.documentPath) text = .ok disk') :
    ∃ base, disk.RootAt root base := by
  obtain ⟨folder, name, place, -, harrives, -⟩ := arrives_of_writeText hcontained h
  have hstart : disk.root.look (disk.start root) = .folder := by
    unfold start
    split_ifs
    · exact Node.look_top hworking
    · exact hworking
  obtain ⟨first, parts, hsplit, hfirst⟩ := Target.exists_first hcontained
  have hup : first ≠ ".." := by
    rintro rfl
    exact Target.up_not_mem hcontained (hsplit ▸ List.mem_cons_self)
  have hplace := harrives.isInFolder hstart
  rw [hsplit] at harrives
  obtain ⟨base, left, hleads, -⟩ := harrives.split hfirst hup hplace
  exact ⟨base, hleads⟩

end Target

end Disk

end SampleHarvest
