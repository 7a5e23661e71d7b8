import Mathlib.Data.List.Find
import SampleHarvest.Harvest.Publication
import SampleHarvest.Proofs.Disk.Confinement
import SampleHarvest.Proofs.Disk.Repetition

/-!
# Where documents stand

A publication that succeeds leaves a file for the path of every artifact, whatever links the paths
lead over. The file holds the document of the last artifact that has it, and apart from these files
nothing but folders is made. The same publication a second time makes no folders and leaves the
same files.
-/

namespace SampleHarvest

namespace Disk

variable {disk made later : Disk} {root : Path} {artifact : Artifact}
  {artifacts : List Artifact} {location : Location}

/-- The file of an artifact below an output root. -/
def documentAt? (disk : Disk) (root : Path) (artifact : Artifact) : Option Location :=
  disk.fileAt? (Path.join root artifact.path)

/-- A document below an output root has its file at a location. -/
def HasDocumentAt (disk : Disk) (root : Path) (location : Location) : Prop :=
  ∃ target : Target, target.isContained ∧
    disk.fileAt? (Path.join root target.documentPath) = some location

theorem HasDocumentAt.isInside (h : disk.HasDocumentAt root location)
    (hlinks : disk.NoLinksIn root) : disk.IsInside root location := by
  obtain ⟨target, hcontained, hfile⟩ := h
  obtain ⟨-, content, harrives⟩ := fileAt?_eq_some_iff.mp hfile
  have hrelative := Target.not_isAbsolute hcontained
  rw [start_join hrelative, Path.splitOn_join hrelative] at harrives
  obtain ⟨base, hroot, hnames, hends⟩ :=
    hlinks.endsAt hcontained (Text.splitOn_ne_nil '/' _) List.prefix_rfl harrives trivial
  exact ⟨base, _, hroot, hnames, hends.present_eq⟩

/-- Files may be written at these locations and folders may be made. -/
def Scope.writing (writes : Location → Prop) : Scope := ⟨fun _ => True, writes, fun _ => False⟩

def lastAt? (disk : Disk) (root : Path) (artifacts : List Artifact) (location : Location) :
    Option Artifact :=
  artifacts.reverse.find? fun artifact => disk.documentAt? root artifact = some location

/-! ### One artifact -/

theorem publish_ok (h : disk.publish root artifact = (made, .ok ())) : ∃ folder name between,
    disk.createFolders ((Path.parent? (Path.join root artifact.path)).getD []) = (between, .ok ()) ∧
    between.filePlace (Path.join root artifact.path) = .ok (folder, name) ∧
    made = between.put folder name (.file (.bytes (Utf8.encode artifact.content))) := by
  rw [publish] at h
  cases hfolders : disk.createFolders ((Path.parent? (Path.join root artifact.path)).getD []) with
  | mk between result =>
      rw [hfolders] at h
      cases result with
      | error fault => cases h
      | ok _ =>
          dsimp only at h
          cases hwrite : between.writeText (Path.join root artifact.path) artifact.content with
          | error fault =>
              rw [hwrite] at h
              cases h
          | ok written =>
              rw [hwrite] at h
              cases h
              obtain ⟨folder, name, hplace, rfl⟩ := writeText_ok hwrite
              exact ⟨folder, name, between, rfl, hplace, rfl⟩

theorem publish_document (h : disk.publish root artifact = (made, .ok ())) : ∃ location,
    made.documentAt? root artifact = some location ∧
    made.root.look location = .file (.bytes (Utf8.encode artifact.content)) := by
  obtain ⟨folder, name, between, -, hplace, rfl⟩ := publish_ok h
  obtain ⟨hfolder, hold, hleads⟩ := filePlace_leads hplace
  exact ⟨folder ++ [name], hleads _, (look_put_file hfolder hold _).trans (if_pos rfl)⟩

/-- Writing an artifact changes its file and makes folders, whether it succeeds or not. -/
theorem publish_changes {scope : Scope} (hmakes : ∀ location, scope.makes location)
    (h : ∀ location, (disk.publish root artifact).2 = .ok () →
      (disk.publish root artifact).1.documentAt? root artifact = some location →
      scope.writes location) : Changes scope disk (disk.publish root artifact).1 := by
  have hfolders := disk.createFolders_changes hmakes
    ((Path.parent? (Path.join root artifact.path)).getD [])
  rw [publish] at h ⊢
  generalize disk.createFolders ((Path.parent? (Path.join root artifact.path)).getD []) = between
    at hfolders h
  obtain ⟨between, result⟩ := between
  cases result with
  | error fault => exact hfolders
  | ok _ =>
      dsimp only at hfolders h ⊢
      cases hwrite : between.writeText (Path.join root artifact.path) artifact.content with
      | error fault => exact hfolders
      | ok written =>
          rw [hwrite] at h
          obtain ⟨folder, name, hplace, rfl⟩ := writeText_ok hwrite
          obtain ⟨hfolder, hold, hleads⟩ := filePlace_leads hplace
          exact hfolders.tail (.write (h _ rfl (hleads _)) hfolder hold)

/-! ### All artifacts -/

theorem publishAll_append (disk : Disk) (root : Path) (front back : List Artifact) :
    disk.publishAll root (front ++ back) =
      match disk.publishAll root front with
      | (made, .error fault) => (made, .error fault)
      | (made, .ok paths) =>
        match made.publishAll root back with
        | (made, .error fault) => (made, .error fault)
        | (made, .ok others) => (made, .ok (paths ++ others)) := by
  induction front generalizing disk with
  | nil =>
      rw [List.nil_append, publishAll]
      dsimp only
      generalize disk.publishAll root back = last
      obtain ⟨last, result⟩ := last
      cases result <;> rfl
  | cons artifact front ih =>
      rw [List.cons_append, publishAll, publishAll]
      generalize disk.publish root artifact = made
      obtain ⟨made, result⟩ := made
      cases result with
      | error fault => rfl
      | ok _ =>
          dsimp only
          rw [ih]
          generalize made.publishAll root front = between
          obtain ⟨between, result⟩ := between
          cases result with
          | error fault => rfl
          | ok paths =>
              dsimp only
              generalize between.publishAll root back = last
              obtain ⟨last, result⟩ := last
              cases result <;> rfl

/-- A publication changes the files of its artifacts and makes folders, whether it succeeds or
not. -/
theorem publishAll_changes (disk : Disk) (root : Path) (artifacts : List Artifact) :
    Changes (.writing fun location => ∃ artifact ∈ artifacts,
      (disk.publishAll root artifacts).1.documentAt? root artifact = some location)
      disk (disk.publishAll root artifacts).1 := by
  induction artifacts generalizing disk with
  | nil => exact .refl
  | cons artifact artifacts ih =>
      have hfirst := fun scope hmakes => @publish_changes disk root artifact scope hmakes
      rw [publishAll]
      generalize disk.publish root artifact = made at hfirst
      obtain ⟨made, result⟩ := made
      cases result with
      | error fault => exact hfirst _ (fun _ => trivial) (fun _ h => nomatch h)
      | ok _ =>
          have hrest := ih made
          dsimp only at hfirst hrest ⊢
          generalize made.publishAll root artifacts = last at hrest
          obtain ⟨last, result⟩ := last
          dsimp only at hrest
          have hlast : ∀ location, made.documentAt? root artifact = some location →
              last.documentAt? root artifact = some location :=
            fun location => hrest.fileAt? id
          have hmore : Changes (.writing fun location => ∃ other ∈ artifact :: artifacts,
              last.documentAt? root other = some location) made last := by
            refine hrest.mono (fun _ => id) ?_ (fun _ => id)
            rintro location ⟨other, hother, hlocation⟩
            exact ⟨other, List.mem_cons_of_mem _ hother, hlocation⟩
          have hmade := hfirst (.writing fun location => ∃ other ∈ artifact :: artifacts,
              last.documentAt? root other = some location) (fun _ => trivial)
            fun location _ hlocation => ⟨artifact, List.mem_cons_self, hlast location hlocation⟩
          cases result <;> exact hmade.trans hmore

variable {paths : List Path}

theorem publishAll_cons_ok (h : disk.publishAll root (artifact :: artifacts) = (made, .ok paths)) :
    ∃ (written : Disk) (others : List Path), disk.publish root artifact = (written, .ok ()) ∧
      written.publishAll root artifacts = (made, .ok others) ∧ paths = artifact.path :: others := by
  rw [publishAll] at h
  generalize disk.publish root artifact = written at h ⊢
  obtain ⟨written, result⟩ := written
  cases result with
  | error fault => cases h
  | ok _ =>
      refine ⟨written, ?_⟩
      dsimp only at h
      generalize written.publishAll root artifacts = last at h ⊢
      obtain ⟨last, result⟩ := last
      cases result with
      | error fault => cases h
      | ok others =>
          cases h
          exact ⟨others, rfl, rfl, rfl⟩

/-- A publication that succeeds writes each artifact, and publishes what follows it. -/
theorem publishAll_split {front back : List Artifact}
    (h : disk.publishAll root (front ++ artifact :: back) = (made, .ok paths)) :
    ∃ (before written : Disk) (others : List Path),
      before.publish root artifact = (written, .ok ()) ∧
      written.publishAll root back = (made, .ok others) := by
  rw [publishAll_append] at h
  generalize disk.publishAll root front = before at h
  obtain ⟨before, result⟩ := before
  cases result with
  | error fault => cases h
  | ok done =>
      dsimp only at h
      cases hback : before.publishAll root (artifact :: back) with
      | mk last result =>
          rw [hback] at h
          cases result with
          | error fault => cases h
          | ok others =>
              cases h
              obtain ⟨written, others, hpublish, hrest, -⟩ := publishAll_cons_ok hback
              exact ⟨before, written, others, hpublish, hrest⟩

/-- After a publication that succeeds, every artifact has a file. -/
theorem exists_documentAt? (h : disk.publishAll root artifacts = (made, .ok paths))
    (hmem : artifact ∈ artifacts) : ∃ location, made.documentAt? root artifact = some location := by
  obtain ⟨front, back, rfl⟩ := List.append_of_mem hmem
  obtain ⟨before, written, others, hpublish, hback⟩ := publishAll_split h
  obtain ⟨location, hlocation, -⟩ := publish_document hpublish
  have hrest := written.publishAll_changes root back
  rw [hback] at hrest
  exact ⟨location, hrest.fileAt? id hlocation⟩

theorem lastAt?_eq_some (h : disk.lastAt? root artifacts location = some artifact) :
    disk.documentAt? root artifact = some location ∧ ∃ front back,
      artifacts = front ++ artifact :: back ∧
      ∀ other ∈ back, disk.documentAt? root other ≠ some location := by
  obtain ⟨hhere, back, front, hsplit, hback⟩ := List.find?_eq_some_iff_append.mp h
  refine ⟨by simpa using hhere, front.reverse, back.reverse, ?_, fun other hother => ?_⟩
  · rw [List.reverse_eq_iff.mp hsplit, List.reverse_append, List.reverse_cons, List.append_assoc]
    rfl
  · simpa using hback other (List.mem_reverse.mp hother)

theorem lastAt?_congr (h : ∀ artifact ∈ artifacts,
      later.documentAt? root artifact = disk.documentAt? root artifact) (location : Location) :
    later.lastAt? root artifacts location = disk.lastAt? root artifacts location := by
  rw [lastAt?, lastAt?]
  refine List.find?_congr fun artifact hmem => ?_
  rw [h artifact (List.mem_reverse.mp hmem)]

theorem lastAt?_isSome (hmem : artifact ∈ artifacts)
    (h : disk.documentAt? root artifact = some location) :
    (disk.lastAt? root artifacts location).isSome := by
  rw [lastAt?, List.find?_isSome]
  exact ⟨artifact, List.mem_reverse.mpr hmem, by simpa using h⟩

/-- After a publication that succeeds, a file holds the document of the last artifact that has
it. -/
theorem look_of_lastAt? (h : disk.publishAll root artifacts = (made, .ok paths))
    (hlast : made.lastAt? root artifacts location = some artifact) :
    made.root.look location = .file (.bytes (Utf8.encode artifact.content)) := by
  obtain ⟨hhere, front, back, rfl, hback⟩ := lastAt?_eq_some hlast
  obtain ⟨before, written, others, hpublish, hrest⟩ := publishAll_split h
  obtain ⟨place, hplace, hlook⟩ := publish_document hpublish
  have hchanges := written.publishAll_changes root back
  rw [hrest] at hchanges
  -- The artifact has the same file after the others are written, and none of them changes it.
  obtain rfl : place = location := Option.some.inj ((hchanges.fileAt? id hplace).symm.trans hhere)
  refine hchanges.look_file ?_ id hlook
  rintro ⟨other, hother, hsame⟩
  exact hback other hother hsame

/-! ### The same publication again -/

def Scope.rewriting (writes : Location → Prop) : Scope := ⟨fun _ => False, writes, fun _ => False⟩

/-- An artifact that has its file is written to it again, and no folders are made. -/
theorem publish_again (h : disk.publish root artifact = (made, .ok ()))
    (hkeeps : Keeps made.root later.root) (hworking : later.workingFolder = made.workingFolder)
    (hfile : made.documentAt? root artifact = some location)
    (hlater : later.documentAt? root artifact = some location) : ∃ again,
    later.publish root artifact = (again, .ok ()) ∧
      Changes (.rewriting (· = location)) later again := by
  obtain ⟨folder, name, between, hfolders, hplace, rfl⟩ := publish_ok h
  obtain ⟨hfolder, hold, hleads⟩ := filePlace_leads hplace
  obtain rfl : folder ++ [name] = location := Option.some.inj ((hleads _).symm.trans hfile)
  have hbetween : Keeps between.root later.root :=
    Keeps.trans (put_keeps hold Node.look_file_below) hkeeps
  refine ⟨later.put folder name (.file (.bytes (Utf8.encode artifact.content))), ?_, ?_⟩
  · have hmade := createFolders_again hfolders hbetween hworking
    have hwrite := filePlace_again hplace hlater
    rw [publish, hmade]
    simp only [writeText, writeFile, hwrite]
    rfl
  · exact .single (.write rfl ((hbetween folder).1 hfolder) (Or.inr (look_of_fileAt? hlater)))

/-- Artifacts that have their files are written to them again, and no folders are made. -/
theorem publishAll_again (h : disk.publishAll root artifacts = (made, .ok paths))
    (hkeeps : Keeps made.root later.root) (hworking : later.workingFolder = made.workingFolder)
    (hfiles : ∀ artifact ∈ artifacts,
      later.documentAt? root artifact = made.documentAt? root artifact) : ∃ again,
    later.publishAll root artifacts = (again, .ok paths) ∧
      Changes (.rewriting fun location => ∃ artifact ∈ artifacts,
        made.documentAt? root artifact = some location) later again := by
  induction artifacts generalizing disk later paths with
  | nil =>
      cases h
      exact ⟨later, rfl, .refl⟩
  | cons artifact artifacts ih =>
      obtain ⟨written, others, hpublish, hrest, rfl⟩ := publishAll_cons_ok h
      obtain ⟨location, hlocation, -⟩ := publish_document hpublish
      have hchanges := written.publishAll_changes root artifacts
      rw [hrest] at hchanges
      have hmade : made.documentAt? root artifact = some location := hchanges.fileAt? id hlocation
      have hlater := (hfiles artifact List.mem_cons_self).trans hmade
      -- What follows keeps the folders and links of the first time, so the second time has them.
      obtain ⟨between, hagain, hfirst⟩ := publish_again hpublish (hchanges.keeps.trans hkeeps)
        (hworking.trans hchanges.workingFolder_eq) hlocation hlater
      have hfiles' : ∀ other ∈ artifacts,
          between.documentAt? root other = made.documentAt? root other := by
        intro other hother
        obtain ⟨place, hplace⟩ := exists_documentAt? hrest hother
        have hthere := (hfiles other (List.mem_cons_of_mem _ hother)).trans hplace
        exact (hfirst.fileAt? id hthere).trans hplace.symm
      obtain ⟨again, hall, hmore⟩ := ih hrest (hkeeps.trans hfirst.keeps)
        (hfirst.workingFolder_eq.trans hworking) hfiles'
      have hwritten : ∀ place, place = location → ∃ other ∈ artifact :: artifacts,
          made.documentAt? root other = some place := by
        rintro _ rfl
        exact ⟨artifact, List.mem_cons_self, hmade⟩
      have hothers : ∀ place, (∃ other ∈ artifacts, made.documentAt? root other = some place) →
          ∃ other ∈ artifact :: artifacts, made.documentAt? root other = some place := by
        rintro place ⟨other, hother, hplace⟩
        exact ⟨other, List.mem_cons_of_mem _ hother, hplace⟩
      refine ⟨again, ?_, Relation.ReflTransGen.trans
        (hfirst.mono (fun _ => id) hwritten fun _ => id)
        (hmore.mono (fun _ => id) hothers fun _ => id)⟩
      rw [publishAll, hagain]
      dsimp only
      rw [hall]

/-- The files hold the same documents after the same publication. -/
theorem look_again (h : disk.publishAll root artifacts = (made, .ok paths)) {again : Disk}
    (hagain : later.publishAll root artifacts = (again, .ok paths))
    (hfiles : ∀ artifact ∈ artifacts,
      again.documentAt? root artifact = made.documentAt? root artifact)
    (hmem : artifact ∈ artifacts) (hplace : made.documentAt? root artifact = some location) :
    again.root.look location = made.root.look location := by
  have hsame := lastAt?_congr hfiles location
  obtain ⟨last, hlast⟩ := Option.isSome_iff_exists.mp (lastAt?_isSome hmem hplace)
  rw [look_of_lastAt? h hlast, look_of_lastAt? hagain (hsame.trans hlast)]

end Disk

end SampleHarvest
