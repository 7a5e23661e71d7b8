import Mathlib.Logic.Relation
import SampleHarvest.Ledger.File
import SampleHarvest.Proofs.Disk.Write
import SampleHarvest.Proofs.Path.Containment

/-!
# Steps of change

A run changes a disk in steps. It makes a folder where nothing stands, writes a file over a file or
over nothing, or drops a file. Folders and links stay in every step, so a path that leads to a file
leads to the same file until that file is dropped.
-/

namespace SampleHarvest

def Look.isFile : Look → Bool
  | .file _ => true
  | _ => false

theorem Look.isFile_iff {look : Look} : look.isFile ↔ ∃ content, look = .file content := by
  cases look <;> simp [isFile]

namespace Disk

/-- Where steps may change a disk, and how. -/
structure Scope where
  makes : Location → Prop
  writes : Location → Prop
  drops : Location → Prop

/-- One step. -/
inductive Change (scope : Scope) : Disk → Disk → Prop
  /-- An empty folder is made where nothing stands. -/
  | make {disk : Disk} {folder : Location} {name : Text} (hplace : scope.makes (folder ++ [name]))
      (hname : Path.IsFileName name) (hfolder : disk.root.look folder = .folder)
      (hold : disk.root.look (folder ++ [name]) = .nothing) :
      Change scope disk (disk.put folder name (.folder []))
  /-- A file is written over a file or over nothing. -/
  | write {disk : Disk} {folder : Location} {name : Text} {content : Content}
      (hplace : scope.writes (folder ++ [name])) (hfolder : disk.root.look folder = .folder)
      (hold : disk.root.look (folder ++ [name]) = .nothing ∨
        ∃ content, disk.root.look (folder ++ [name]) = .file content) :
      Change scope disk (disk.put folder name (.file content))
  | drop {disk : Disk} {folder : Location} {name : Text} (hplace : scope.drops (folder ++ [name])) :
      Change scope disk (disk.drop folder name)

/-- Anything may be made, written and dropped anywhere. -/
def Scope.any : Scope := ⟨fun _ => True, fun _ => True, fun _ => True⟩

/-- Any number of steps. -/
abbrev Changes (scope : Scope) : Disk → Disk → Prop := Relation.ReflTransGen (Change scope)

variable {disk old new : Disk} {scope : Scope} {folder location : Location} {name : Text}

/-! ### One step -/

theorem look_drop (disk : Disk) (folder : Location) (name : Text) (location : Location) :
    (disk.drop folder name).root.look location =
      if location = folder ++ [name] ∧ (disk.root.look location).isFile then .nothing
      else disk.root.look location := by
  rw [drop]
  split
  · next content hget =>
      have hfile := Node.look_eq_file_iff.mpr hget
      dsimp only
      rw [Node.look_erase]
      by_cases hhere : location = folder ++ [name]
      · subst hhere
        rw [if_pos List.prefix_rfl, if_pos ⟨rfl, by rw [hfile]; rfl⟩]
      · have hother : ¬(location = folder ++ [name] ∧ (disk.root.look location).isFile) :=
          fun h => hhere h.1
        rw [if_neg hother]
        split_ifs with hbelow
        · obtain ⟨rest, rfl⟩ := hbelow
          refine (Node.look_below (by rw [hfile]; nofun) fun hrest => hhere ?_).symm
          rw [hrest, List.append_nil]
        · rfl
  · next hfile =>
      rw [if_neg]
      rintro ⟨rfl, h⟩
      obtain ⟨content, hlook⟩ := Look.isFile_iff.mp h
      exact hfile content (Node.look_eq_file_iff.mp hlook)

@[simp]
theorem drop_workingFolder (disk : Disk) (folder : Location) (name : Text) :
    (disk.drop folder name).workingFolder = disk.workingFolder := by
  rw [drop]
  split <;> rfl

theorem look_put_file {content : Content} (hfolder : disk.root.look folder = .folder)
    (hold : disk.root.look (folder ++ [name]) = .nothing ∨
      ∃ content, disk.root.look (folder ++ [name]) = .file content) (location : Location) :
    (disk.put folder name (.file content)).root.look location =
      if location = folder ++ [name] then .file content else disk.root.look location :=
  Node.look_put hfolder (not_folder_of_file hold) Node.look_file_below location

theorem Change.cases (h : Change scope old new) (location : Location) :
    new.root.look location = old.root.look location ∨
    (scope.makes location ∧ old.root.look location = .nothing ∧
      new.root.look location = .folder) ∨
    (scope.writes location ∧
      (old.root.look location = .nothing ∨ ∃ content, old.root.look location = .file content) ∧
      ∃ content, new.root.look location = .file content) ∨
    (scope.drops location ∧ (∃ content, old.root.look location = .file content) ∧
      new.root.look location = .nothing) := by
  cases h with
  | @make folder name hplace hname hfolder hold =>
      have hlook : (old.put folder name (.folder [])).root.look location = _ :=
        Node.look_put hfolder (by rw [hold]; nofun) Node.look_folder_below location
      rw [hlook]
      split_ifs with hhere
      · subst hhere
        exact Or.inr (Or.inl ⟨hplace, hold, rfl⟩)
      · exact Or.inl rfl
  | write hplace hfolder hold =>
      rw [look_put_file hfolder hold]
      split_ifs with hhere
      · subst hhere
        exact Or.inr (Or.inr (Or.inl ⟨hplace, hold, _, rfl⟩))
      · exact Or.inl rfl
  | drop hplace =>
      rw [look_drop]
      split_ifs with hhere
      · obtain ⟨rfl, hfile⟩ := hhere
        exact Or.inr (Or.inr (Or.inr ⟨hplace, Look.isFile_iff.mp hfile, rfl⟩))
      · exact Or.inl rfl

theorem Change.keeps (h : Change scope old new) : Keeps old.root new.root := by
  intro location
  rcases h.cases location with hsame | ⟨-, hnothing, -⟩ | ⟨-, hnothing | ⟨content, hfile⟩, -⟩ |
    ⟨-, ⟨content, hfile⟩, -⟩ <;> simp_all

/-! ### Any number of steps -/

namespace Changes

theorem mono {scope' : Scope} (h : Changes scope old new)
    (hmakes : ∀ location, scope.makes location → scope'.makes location)
    (hwrites : ∀ location, scope.writes location → scope'.writes location)
    (hdrops : ∀ location, scope.drops location → scope'.drops location) :
    Changes scope' old new := by
  refine Relation.ReflTransGen.mono (fun a b hstep => ?_) _ _ h
  cases hstep with
  | make hplace hname hfolder hold => exact .make (hmakes _ hplace) hname hfolder hold
  | write hplace hfolder hold => exact .write (hwrites _ hplace) hfolder hold
  | drop hplace => exact .drop (hdrops _ hplace)

theorem any (h : Changes scope old new) : Changes .any old new :=
  h.mono (fun _ _ => trivial) (fun _ _ => trivial) fun _ _ => trivial

/-- Folders and links stay. -/
theorem keeps (h : Changes scope old new) : Keeps old.root new.root := by
  induction h with
  | refl => exact fun _ => ⟨id, fun _ => id⟩
  | tail _ hstep ih => exact ih.trans hstep.keeps

theorem workingFolder_eq (h : Changes scope old new) : new.workingFolder = old.workingFolder := by
  induction h with
  | refl => rfl
  | tail _ hstep ih =>
      rw [← ih]
      cases hstep with
      | make | write => rfl
      | drop => exact drop_workingFolder _ _ _

theorem start_eq (h : Changes scope old new) (path : Path) : new.start path = old.start path := by
  rw [start, start, h.workingFolder_eq]

theorem link_before {target : Path} (h : Changes scope old new)
    (hlink : new.root.look location = .link target) : old.root.look location = .link target := by
  induction h with
  | refl => exact hlink
  | tail _ hstep ih =>
      apply ih
      rcases hstep.cases location with hsame | ⟨-, -, hmade⟩ | ⟨-, -, content, hmade⟩ | ⟨-, -, hmade⟩
      · rw [← hsame, hlink]
      all_goals
        rw [hlink] at hmade
        cases hmade

theorem hasNoLinks (h : Changes scope old new) (hlinks : old.root.HasNoLinks) :
    new.root.HasNoLinks :=
  fun location target hlink => hlinks location target (h.link_before hlink)

theorem file_stays {content : Content} (h : Changes scope old new) (hdrops : ¬scope.drops location)
    (hfile : old.root.look location = .file content) :
    ∃ content, new.root.look location = .file content := by
  induction h with
  | refl => exact ⟨content, hfile⟩
  | tail _ hstep ih =>
      obtain ⟨content, ih⟩ := ih
      rcases hstep.cases location with hsame | ⟨-, hold, -⟩ | ⟨-, -, hmade⟩ | ⟨hplace, -⟩
      · exact ⟨content, hsame.trans ih⟩
      · rw [ih] at hold
        cases hold
      · exact hmade
      · exact absurd hplace hdrops

/-- Where nothing is written or dropped, at most a folder is made. -/
theorem look_eq_or (h : Changes scope old new) (hwrites : ¬scope.writes location)
    (hdrops : ¬scope.drops location) :
    new.root.look location = old.root.look location ∨
      scope.makes location ∧ old.root.look location = .nothing ∧
        new.root.look location = .folder := by
  induction h with
  | refl => exact Or.inl rfl
  | tail _ hstep ih =>
      rcases hstep.cases location with hsame | ⟨hmakes, hnothing, hmade⟩ | ⟨hplace, -⟩ | ⟨hplace, -⟩
      · rw [hsame]
        exact ih
      · rcases ih with ih | ⟨-, -, hfolder⟩
        · exact Or.inr ⟨hmakes, ih ▸ hnothing, hmade⟩
        · rw [hnothing] at hfolder
          cases hfolder
      · exact absurd hplace hwrites
      · exact absurd hplace hdrops

/-- Where nothing may be done, nothing changes. -/
theorem look_eq (h : Changes scope old new) (hmakes : ¬scope.makes location)
    (hwrites : ¬scope.writes location) (hdrops : ¬scope.drops location) :
    new.root.look location = old.root.look location :=
  (h.look_eq_or hwrites hdrops).resolve_right fun hmade => hmakes hmade.1

/-- A file that is neither written over nor dropped stays as it is. -/
theorem look_file {content : Content} (h : Changes scope old new) (hwrites : ¬scope.writes location)
    (hdrops : ¬scope.drops location) (hfile : old.root.look location = .file content) :
    new.root.look location = .file content := by
  rcases h.look_eq_or hwrites hdrops with hsame | ⟨-, hnothing, -⟩
  · rw [hsame, hfile]
  · rw [hfile] at hnothing
    cases hnothing

end Changes

/-! ### Paths to folders -/

variable {path : Path}

theorem locate_folder_iff {entries : List (Text × Node)} :
    disk.locate true path = .ok (.present location (.folder entries)) ↔
      Disk.parts path = .ok (Text.splitOn '/' path) ∧
        LeadsTo disk.root location maxLinks (disk.start path) (Text.splitOn '/' path) ∧
        disk.root.get? location = some (.folder entries) := by
  rw [locate]
  cases hparts : Disk.parts path with
  | error fault => simp [bind, Except.bind]
  | ok parts =>
      obtain rfl := parts_eq hparts
      simp only [bind, Except.bind, true_and]
      constructor
      · exact fun hwalk => ⟨leadsTo_of_walk hwalk, get?_of_walk hwalk⟩
      · rintro ⟨hleads, hget⟩
        obtain ⟨found, hwalk⟩ := hleads.walk
        cases (get?_of_walk hwalk).symm.trans hget
        exact hwalk

def folderAt? (disk : Disk) (path : Path) : Option Location :=
  match disk.locate true path with
  | .ok (.present location (.folder _)) => some location
  | _ => none

theorem folderAt?_eq_some_iff : disk.folderAt? path = some location ↔
    Disk.parts path = .ok (Text.splitOn '/' path) ∧
      LeadsTo disk.root location maxLinks (disk.start path) (Text.splitOn '/' path) := by
  constructor
  · intro h
    rw [folderAt?] at h
    split at h
    · next found entries hlocate =>
        obtain rfl := Option.some.inj h
        obtain ⟨hparts, hleads, -⟩ := locate_folder_iff.mp hlocate
        exact ⟨hparts, hleads⟩
    · cases h
  · rintro ⟨hparts, hleads⟩
    obtain ⟨entries, hget⟩ := Node.look_eq_folder_iff.mp hleads.look
    rw [folderAt?, locate_folder_iff.mpr ⟨hparts, hleads, hget⟩]

theorem node_folder_iff {entries : List (Text × Node)} : disk.node path = .ok (.folder entries) ↔
    Disk.parts path = .ok (Text.splitOn '/' path) ∧ ∃ base,
      LeadsTo disk.root base maxLinks (disk.start path) (Text.splitOn '/' path) ∧
        disk.root.get? base = some (.folder entries) := by
  rw [node]
  constructor
  · intro h
    split at h
    · next base found hlocate =>
        cases h
        obtain ⟨hparts, hleads, hget⟩ := locate_folder_iff.mp hlocate
        exact ⟨hparts, base, hleads, hget⟩
    · cases h
    · cases h
  · rintro ⟨hparts, base, hleads, hget⟩
    rw [locate_folder_iff.mpr ⟨hparts, hleads, hget⟩]

/-! ### Paths to files -/

def fileAt? (disk : Disk) (path : Path) : Option Location :=
  match disk.locate true path with
  | .ok (.present location (.file _)) => some location
  | _ => none

theorem fileAt?_eq_some_iff : disk.fileAt? path = some location ↔
    Disk.parts path = .ok (Text.splitOn '/' path) ∧ ∃ content,
      Arrives disk.root true maxLinks (disk.start path) (Text.splitOn '/' path)
        (.present location (.file content)) := by
  rw [fileAt?, locate]
  cases hparts : Disk.parts path with
  | error fault => simp [bind, Except.bind]
  | ok parts =>
      obtain rfl := parts_eq hparts
      simp only [bind, Except.bind, true_and]
      constructor
      · intro h
        split at h
        · next hwalk =>
            cases h
            exact ⟨_, arrives_of_walk hwalk⟩
        · cases h
      · rintro ⟨content, h⟩
        rw [h.walk]

theorem look_of_fileAt? (h : disk.fileAt? path = some location) :
    ∃ content, disk.root.look location = .file content := by
  obtain ⟨-, content, harrives⟩ := fileAt?_eq_some_iff.mp h
  exact ⟨content, Node.look_eq_file_iff.mpr harrives.get?⟩

theorem readContent_of_fileAt? {content : Content} (h : disk.fileAt? path = some location)
    (hlook : disk.root.look location = .file content) : disk.readContent path = .ok content := by
  obtain ⟨hparts, other, harrives⟩ := fileAt?_eq_some_iff.mp h
  have hsame := (Node.look_eq_file_iff.mpr harrives.get?).symm.trans hlook
  cases hsame
  have hlocate : disk.locate true path = .ok (.present location (.file content)) := by
    rw [locate, hparts]
    exact harrives.walk
  rw [readContent, node, hlocate]

theorem Changes.fileAt? (h : Changes scope old new) (hdrops : ¬scope.drops location)
    (hfile : old.fileAt? path = some location) : new.fileAt? path = some location := by
  obtain ⟨hparts, content, harrives⟩ := fileAt?_eq_some_iff.mp hfile
  obtain ⟨content', hstays⟩ := h.file_stays hdrops (Node.look_eq_file_iff.mpr harrives.get?)
  refine fileAt?_eq_some_iff.mpr ⟨hparts, content', ?_⟩
  rw [h.start_eq]
  exact harrives.keeps_file h.keeps hstays

/-- Where a file may be written there is room in a folder, and then its path leads there. -/
theorem filePlace_leads (h : disk.filePlace path = .ok (folder, name)) :
    disk.root.look folder = .folder ∧
    (disk.root.look (folder ++ [name]) = .nothing ∨
      ∃ content, disk.root.look (folder ++ [name]) = .file content) ∧
    ∀ content, (disk.put folder name (.file content)).fileAt? path = some (folder ++ [name]) := by
  obtain ⟨hparts, ⟨hvacant, location, found, hmade⟩ | ⟨old, hpresent⟩⟩ := filePlace_ok h
  · have harrives := arrives_of_walk hvacant
    have hold := harrives.look
    have hfolder : disk.root.look folder = .folder := by
      by_contra hfolder
      rw [Node.put_of_not_folder hfolder, hvacant] at hmade
      cases hmade
    refine ⟨hfolder, Or.inl hold, fun content => ?_⟩
    have hlook : ∀ content location, (disk.root.put folder name (.file content)).look location = _ :=
      fun content location => look_put_file hfolder (Or.inl hold) location
    have hthere : ∀ content,
        (disk.root.put folder name (.file content)).look (folder ++ [name]) = .file content :=
      fun content => (hlook content _).trans (if_pos rfl)
    -- An empty file is found there, and so is any other file.
    have hempty := harrives.present_of_vacant
      (put_keeps (Or.inl hold) Node.look_file_below) (hthere (.bytes [])) hmade
    have hkeeps : Keeps (disk.root.put folder name (.file (.bytes [])))
        (disk.root.put folder name (.file content)) := by
      intro location
      rw [hlook, hlook]
      split_ifs <;> simp
    rw [hempty] at hmade
    exact fileAt?_eq_some_iff.mpr
      ⟨hparts, content, (arrives_of_walk hmade).keeps_file hkeeps (hthere content)⟩
  · have hold := Node.look_eq_file_iff.mpr (arrives_of_walk hpresent).get?
    have hfolder := Node.look_above (by rw [hold]; nofun) (List.cons_ne_nil name [])
    refine ⟨hfolder, Or.inr ⟨old, hold⟩, fun content => ?_⟩
    refine fileAt?_eq_some_iff.mpr ⟨hparts, content, ?_⟩
    exact (arrives_of_walk hpresent).keeps_file (put_keeps (Or.inr ⟨old, hold⟩) Node.look_file_below)
      ((look_put_file hfolder (Or.inr ⟨old, hold⟩) _).trans (if_pos rfl))

/-! ### What the steps of a run are -/

/-- A name that a path leads to is a part of the path, or of a link on the way. -/
theorem Arrives.isFileName {root : Node} {follows : Bool} {links : Nat} {here : Location}
    {parts : List Text} (h : Arrives root follows links here parts (.vacant folder name))
    (hparts : ∀ part ∈ parts, '/' ∉ part) : Path.IsFileName name := by
  generalize hplace : Place.vacant folder name = place at h
  induction h with
  | here | file | stop => cases hplace
  | idle _ _ ih | up _ ih | down _ _ _ ih => exact ih (List.forall_mem_cons.mp hparts).2 hplace
  | absent hname =>
      cases hplace
      exact ⟨hname.1, hname.2.1, (List.forall_mem_cons.mp hparts).1⟩
  | link _ _ _ _ ih =>
      refine ih (fun part hpart => ?_) hplace
      rcases List.mem_append.mp hpart with htarget | hrest
      · exact Text.not_mem_of_mem_splitOn htarget
      · exact hparts part (List.mem_cons_of_mem _ hrest)

theorem createFolders_changes (hmakes : ∀ location, scope.makes location) (disk : Disk)
    (path : Path) : Changes scope disk (disk.createFolders path).1 := by
  refine createChain_induction (R := Changes scope) (fun _ => .refl) .trans ?_ disk
  intro path _ a b hmade
  obtain ⟨-, folder, name, harrives, hfolder, rfl⟩ := createFolder_ok hmade
  have hname := harrives.isFileName fun part hpart => Text.not_mem_of_mem_splitOn hpart
  exact .single (.make (hmakes _) hname hfolder harrives.look)

end Disk

end SampleHarvest
