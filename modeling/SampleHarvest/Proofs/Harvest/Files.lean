import Mathlib.Data.List.Dedup
import SampleHarvest.Proofs.Disk.Change
import SampleHarvest.Proofs.Harvest.Containment
import SampleHarvest.Proofs.Harvest.Publication
import SampleHarvest.Proofs.Path.Reference

/-!
# The files of a harvest

Of several artifacts with one path the first is kept, but paths are compared as texts there. A dot
between slashes makes another text and leads to the same file. So two artifacts of a harvest have one
file exactly if their paths differ in dots only, and the file holds the last of them.

Without dots every artifact has a file of its own.
-/

namespace SampleHarvest

namespace Disk

variable {disk : Disk} {root : Path} {artifact : Artifact} {artifacts : List Artifact}

theorem RootAt.isAbove {base : Location} (h : disk.RootAt root base) (hlinks : disk.NoLinksIn root) :
    disk.IsAbove root base [] where
  leads := ⟨Path.baseParts root, (List.append_nil _).symm, h⟩
  up := List.not_mem_nil
  links := by
    intro below target hlink
    rw [namesOf, List.filter_nil, List.take_nil, List.append_nil] at hlink
    by_cases hbelow : below = []
    · rw [hbelow, List.append_nil, LeadsTo.look h] at hlink
      cases hlink
    · exact hlinks (base ++ below) ⟨base, below, h, hbelow, rfl⟩ target hlink

/-- After the first artifact is written the root is a folder and holds it, whatever was there. -/
theorem publish_hasWritten (root : Path) (hcontained : artifact.target.isContained)
    (hworking : disk.root.look disk.workingFolder = .folder)
    (hok : (disk.publish root artifact).2 = .ok ())
    (hlinks : (disk.publish root artifact).1.NoLinksIn root) :
    (disk.publish root artifact).1.HasWritten root [artifact] := by
  have hfolders : Confined disk
      (disk.createFolders ((Path.parent? (Path.join root artifact.path)).getD [])).1 root :=
    createFolders_confined hcontained disk
  rw [publish] at hok hlinks ⊢
  generalize disk.createFolders ((Path.parent? (Path.join root artifact.path)).getD []) = made
    at hfolders hok hlinks ⊢
  obtain ⟨made, result⟩ := made
  cases result with
  | error fault => cases hok
  | ok _ =>
      dsimp only at hfolders hok hlinks ⊢
      cases hwrite : made.writeText (Path.join root artifact.path) artifact.content with
      | error fault =>
          rw [hwrite] at hok
          cases hok
      | ok disk' =>
          rw [hwrite] at hlinks
          have hmade : made.root.look made.workingFolder = .folder := by
            rw [hfolders.workingFolder]
            exact (hfolders.keeps _).1 hworking
          have hconfined := writeText_confined hcontained hwrite
          have hbefore : made.NoLinksIn root := hlinks.keeps hconfined.keeps hconfined.workingFolder
          obtain ⟨base, hroot⟩ := exists_rootAt_of_writeText hcontained hmade hwrite
          have hpublishes : disk'.Publishes root ([] ++ [artifact]) (base ++ namesOf []) :=
            (hroot.isAbove hbefore).publishes hcontained hwrite (fun _ _ hlast => by cases hlast)
              (List.forall_mem_nil _) (List.forall_mem_nil _)
          exact Or.inr ⟨_, hpublishes⟩

/-- After a publication that succeeds the root holds all artifacts, whatever was there. -/
theorem publishAll_publishes (hne : artifacts ≠ [])
    (hcontained : ∀ artifact ∈ artifacts, artifact.target.isContained)
    (hworking : disk.root.look disk.workingFolder = .folder) {paths : List Path}
    (hok : (disk.publishAll root artifacts).2 = .ok paths)
    (hlinks : (disk.publishAll root artifacts).1.NoLinksIn root) :
    ∃ base, (disk.publishAll root artifacts).1.Publishes root artifacts base := by
  obtain ⟨first, rest, rfl⟩ := List.exists_cons_of_ne_nil hne
  have hfirst := hcontained first List.mem_cons_self
  have hrest : ∀ artifact ∈ rest, artifact.target.isContained := fun other hother =>
    hcontained other (List.mem_cons_of_mem _ hother)
  obtain ⟨-, hall⟩ := publishAll_ok hok
  have hwritten := publish_hasWritten root hfirst hworking
  rw [published] at hall
  rw [publishAll] at hok hlinks ⊢
  generalize disk.publish root first = made at hwritten hall hok hlinks ⊢
  obtain ⟨made, result⟩ := made
  cases result with
  | error fault => cases hok
  | ok _ =>
      dsimp only at hwritten hall hok hlinks ⊢
      have hconfined := publishAll_confined hrest made root
      have hlast : made.NoLinksIn root → made.HasWritten root [first] := hwritten rfl
      obtain ⟨-, hall⟩ := List.cons.inj hall
      have hrestwritten := fun hmade => (hlast hmade).publishAll hrest
      rw [hall] at hrestwritten
      generalize made.publishAll root rest = last at hconfined hrestwritten hok hlinks ⊢
      obtain ⟨last, result⟩ := last
      cases result with
      | error fault => cases hok
      | ok others =>
          dsimp only at hconfined hrestwritten hlinks ⊢
          exact (hrestwritten (hlinks.keeps hconfined.keeps hconfined.workingFolder)).resolve_left
            fun hnone => List.cons_ne_nil _ _ hnone.1

theorem Publishes.fileAt? {base : Location} (h : disk.Publishes root artifacts base)
    (hmem : artifact ∈ artifacts) :
    disk.fileAt? (Path.join root artifact.path) = some (base ++ artifact.names) := by
  obtain ⟨last, -, hlocate⟩ := h.locate hmem
  rw [Disk.fileAt?, hlocate]

/-- In a root that holds artifacts, two paths lead to one file exactly if they have the same
components. -/
theorem Publishes.fileAt?_eq_iff {base : Location} (h : disk.Publishes root artifacts base)
    {a b : Artifact} (ha : a ∈ artifacts) (hb : b ∈ artifacts) :
    disk.fileAt? (Path.join root a.path) = disk.fileAt? (Path.join root b.path) ↔
      Path.components a.path = Path.components b.path := by
  rw [h.fileAt? ha, h.fileAt? hb, Option.some.injEq, List.append_cancel_left_eq]
  exact Artifact.names_eq_iff (h.contained a ha) (h.contained b hb)

/-- There are as many files as paths with different components. -/
theorem Publishes.length_files {base : Location} (h : disk.Publishes root artifacts base) :
    ((artifacts.map fun a => disk.fileAt? (Path.join root a.path)).dedup).length =
      ((artifacts.map fun a => Path.components a.path).dedup).length := by
  have hfiles : artifacts.map (fun a => disk.fileAt? (Path.join root a.path)) =
      (artifacts.map Artifact.names).map fun names => some (base ++ names) := by
    rw [List.map_map]
    exact List.map_congr_left fun a ha => h.fileAt? ha
  have hcomponents : artifacts.map (fun a => Path.components a.path) =
      (artifacts.map Artifact.names).map (List.map Path.Component.name) := by
    rw [List.map_map]
    exact List.map_congr_left fun a ha => Target.components_eq (h.contained a ha)
  have hlocation : Function.Injective fun names : Location => some (base ++ names) :=
    fun _ _ heq => List.append_cancel_left (Option.some.inj heq)
  have hname : Function.Injective (List.map Path.Component.name) :=
    List.map_injective_iff.mpr fun _ _ => Path.Component.name.inj
  rw [hfiles, hcomponents, List.dedup_map_of_injective hlocation, List.dedup_map_of_injective hname,
    List.length_map, List.length_map]

/-- A file holds the document of the last artifact whose path has the components. -/
theorem Publishes.readContent {base : Location} (h : disk.Publishes root artifacts base)
    (hmem : artifact ∈ artifacts) :
    ∃ front last back, artifacts = front ++ last :: back ∧
      Path.components last.path = Path.components artifact.path ∧
      (∀ other ∈ back, Path.components other.path ≠ Path.components artifact.path) ∧
      disk.readContent (Path.join root artifact.path) =
        .ok (.bytes (Utf8.encode last.content)) := by
  obtain ⟨last, hlast, hlocate⟩ := h.locate hmem
  obtain ⟨hnames, front, back, hsplit, hback⟩ := lastNamed?_eq_some hlast
  have hcontained := h.contained artifact hmem
  refine ⟨front, last, back, hsplit, ?_, fun other hother hsame => hback other hother ?_,
    readContent_of_locate hlocate⟩
  · refine (Artifact.names_eq_iff (h.contained last ?_) hcontained).mp hnames
    exact hsplit ▸ List.mem_append_right front List.mem_cons_self
  · refine (Artifact.names_eq_iff (h.contained other ?_) hcontained).mpr hsame
    exact hsplit ▸ List.mem_append_right front (List.mem_cons_of_mem _ hother)

end Disk

/-- **The files of a harvest.** The artifacts of a harvest have different paths. Two of the paths have
the same components exactly if they differ in dots only; without dots all of them have different
components.

After a publication that succeeds, in a root without links, two paths lead to one file exactly if they
have the same components, so there are as many files as paths with different components. A file holds
the document of the last artifact that has it. -/
theorem harvest_files {harvester : Harvester} {disk : Disk} {sources : Path} {harvest : Harvest}
    (h : harvester.harvest disk sources = .ok harvest) :
    (harvest.artifacts.map Artifact.path).Nodup ∧
    (∀ a ∈ harvest.artifacts, ∀ b ∈ harvest.artifacts,
      Path.components a.path = Path.components b.path ↔
        a.path.dotlessParts = b.path.dotlessParts) ∧
    ((∀ a ∈ harvest.artifacts, ("." : Text) ∉ Text.splitOn '/' a.path) →
      (harvest.artifacts.map fun a => Path.components a.path).Nodup) ∧
    ∀ (out : Disk) (root : Path) (paths : List Path),
      out.root.look out.workingFolder = .folder →
      (out.publishAll root harvest.artifacts).2 = .ok paths →
      (out.publishAll root harvest.artifacts).1.NoLinksIn root →
      let new := (out.publishAll root harvest.artifacts).1
      paths = harvest.artifacts.map Artifact.path ∧
      (∀ a ∈ harvest.artifacts, ∃ front last back, harvest.artifacts = front ++ last :: back ∧
        Path.components last.path = Path.components a.path ∧
        (∀ other ∈ back, Path.components other.path ≠ Path.components a.path) ∧
        new.readContent (Path.join root a.path) = .ok (.bytes (Utf8.encode last.content))) ∧
      (∀ a ∈ harvest.artifacts, ∀ b ∈ harvest.artifacts,
        new.fileAt? (Path.join root a.path) = new.fileAt? (Path.join root b.path) ↔
          Path.components a.path = Path.components b.path) ∧
      ((paths.map fun path => new.fileAt? (Path.join root path)).dedup).length =
        ((paths.map Path.components).dedup).length := by
  obtain ⟨hcontained, hpaths⟩ := Harvester.harvest_artifacts h
  have hdots : ∀ a ∈ harvest.artifacts, ∀ b ∈ harvest.artifacts,
      Path.components a.path = Path.components b.path ↔
        a.path.dotlessParts = b.path.dotlessParts := by
    have hparts : ∀ a ∈ harvest.artifacts, [] ∉ Text.splitOn '/' a.path := by
      intro a ha
      rw [Artifact.path, Harvester.target_of_mem_harvest h ha]
      exact Target.nil_not_mem_ofReference _ harvester.dialect.slash_not_mem_folderSuffix
    intro a ha b hb
    exact Target.components_eq_iff (hcontained a ha) (hcontained b hb) (hparts a ha) (hparts b hb)
  refine ⟨hpaths, hdots, fun hnone => ?_, fun out root paths hworking hok hlinks => ?_⟩
  · refine List.Nodup.map_on (fun a ha b hb hsame => ?_) hpaths.of_map
    have hpath := Path.eq_of_dotlessParts (hnone a ha) (hnone b hb) ((hdots a ha b hb).mp hsame)
    exact List.inj_on_of_nodup_map hpaths ha hb hpath
  · obtain ⟨rfl, -⟩ := Disk.publishAll_ok hok
    have hpublishes : harvest.artifacts ≠ [] →
        ∃ base, (out.publishAll root harvest.artifacts).1.Publishes root harvest.artifacts base :=
      fun hne => Disk.publishAll_publishes hne hcontained hworking hok hlinks
    refine ⟨rfl, fun a ha => ?_, fun a ha b hb => ?_, ?_⟩
    · obtain ⟨base, hbase⟩ := hpublishes (List.ne_nil_of_mem ha)
      exact hbase.readContent ha
    · obtain ⟨base, hbase⟩ := hpublishes (List.ne_nil_of_mem ha)
      exact hbase.fileAt?_eq_iff ha hb
    · rw [List.map_map, List.map_map]
      by_cases hne : harvest.artifacts = []
      · rw [hne]
        rfl
      · obtain ⟨base, hbase⟩ := hpublishes hne
        exact hbase.length_files

/-! ### Two paths of one file -/

/-- A disk with a source file that refers to one document twice, the second time with a dot. -/
def respelledSource : Disk where
  root := .folder [("in", .folder [("b_test.go", .file (.bytes (Utf8.encode (
    ("// x-ms-original-file: a/examples/B.json\nfunc B() \x7b\n\x7d\n" : Text) ++
      "// x-ms-original-file: a/./examples/B.json\nfunc C() \x7b\n\x7d\n"))))])]
  workingFolder := []

def respelledPath : Path := "in/b_test.go"

def respelledFile : FileHarvest := acceptingHarvester.given respelledSource respelledPath

def respelledHarvest : Harvest := .ofFiles [respelledFile]

/-- A disk with an empty working folder. -/
def emptyDisk : Disk where
  root := .folder []
  workingFolder := []

def respelledOutput : Disk := (emptyDisk.publishAll "out" respelledHarvest.artifacts).1

/-- The file gives two artifacts in their order, with different paths, and they can be published. -/
theorem respelledFile_effect :
    (acceptingHarvester.harvestFile respelledSource respelledPath).toOption.isSome ∧
    respelledFile.artifacts.map Artifact.path =
      [("a/examples-go/B.md" : Path), ("a/./examples-go/B.md" : Path)] ∧
    (respelledFile.artifacts.Pairwise fun a b => a.le b) ∧
    Harvest.keepFirst respelledFile.artifacts = respelledFile.artifacts ∧
    (emptyDisk.publishAll "out" respelledFile.artifacts).2.toOption.isSome := by
  decide +kernel

theorem respelledSource_harvest :
    acceptingHarvester.harvest respelledSource "in" = .ok respelledHarvest := by
  have hfiles : (respelledSource.discover acceptingHarvester.dialect.rules "in").toOption =
      some [respelledPath] := by decide +kernel
  obtain ⟨hread, -⟩ := respelledFile_effect
  have hharvest : acceptingHarvester.harvestFiles respelledSource [respelledPath] =
      .ok (.ofFiles ([respelledPath].map (acceptingHarvester.given respelledSource))) := by
    refine Harvester.harvestFiles_ok fun source hsource hfails => ?_
    obtain ⟨failure, hfailure⟩ := hfails
    rw [List.mem_singleton.mp hsource] at hfailure
    rw [hfailure] at hread
    cases hread
  rw [List.map_singleton] at hharvest
  cases hdiscover : respelledSource.discover acceptingHarvester.dialect.rules "in" with
  | error failure => rw [hdiscover] at hfiles; cases hfiles
  | ok files =>
      rw [hdiscover] at hfiles
      obtain rfl : files = [respelledPath] := Option.some.inj hfiles
      exact Harvester.harvest_ok_iff.mpr ⟨_, hdiscover, by decide, hharvest⟩

theorem respelledHarvest_artifacts : respelledHarvest.artifacts = respelledFile.artifacts := by
  obtain ⟨-, -, horder, hkept, -⟩ := respelledFile_effect
  have hall : [respelledFile].flatMap FileHarvest.artifacts = respelledFile.artifacts :=
    List.flatMap_singleton _ _
  exact (Harvest.artifacts_ofFiles (hall.symm ▸ horder)).trans (hall.symm ▸ hkept)

theorem respelledHarvest_eq :
    ∃ a b, respelledHarvest.artifacts = [a, b] ∧ a.path = ("a/examples-go/B.md" : Path) ∧
      b.path = ("a/./examples-go/B.md" : Path) := by
  obtain ⟨-, hpaths, -⟩ := respelledFile_effect
  obtain ⟨a, rest, hartifacts, ha, hrest⟩ := List.map_eq_cons_iff.mp hpaths
  obtain ⟨b, more, rfl, hb, hnone⟩ := List.map_eq_cons_iff.mp hrest
  obtain rfl := List.map_eq_nil_iff.mp hnone
  exact ⟨a, b, respelledHarvest_artifacts.trans hartifacts, ha, hb⟩

/-- Two artifacts of this harvest are different and have the same components. -/
theorem harvest_components_shared :
    ¬∀ (harvester : Harvester) (disk : Disk) (sources : Path) (harvest : Harvest),
      harvester.harvest disk sources = .ok harvest →
      ∀ a ∈ harvest.artifacts, ∀ b ∈ harvest.artifacts, a ≠ b →
        Path.components a.path ≠ Path.components b.path := by
  intro h
  obtain ⟨a, b, hartifacts, hpathA, hpathB⟩ := respelledHarvest_eq
  have hall := h _ _ _ _ respelledSource_harvest
  rw [hartifacts] at hall
  have hne : a ≠ b := by
    rintro rfl
    exact absurd (hpathA.symm.trans hpathB) (by decide)
  refine hall a List.mem_cons_self b (List.mem_cons_of_mem _ List.mem_cons_self) hne ?_
  rw [hpathA, hpathB]
  decide

theorem respelledOutput_noLinks : respelledOutput.NoLinksIn "out" := by
  obtain ⟨hcontained, -⟩ := Harvester.harvest_artifacts respelledSource_harvest
  intro location _ target hlink
  have hold := (Disk.publishAll_confined hcontained emptyDisk "out").links location target hlink
  by_cases hlocation : location = []
  · rw [hlocation] at hold
    cases hold
  · have hnothing : emptyDisk.root.look location = .nothing :=
      Node.look_folder_below location hlocation
    rw [hnothing] at hold
    cases hold

/-- The two artifacts of this harvest make one file, which holds the second of them. -/
theorem harvest_files_respelled :
    ∃ a b, respelledHarvest.artifacts = [a, b] ∧ a.path ≠ b.path ∧
      (emptyDisk.publishAll "out" respelledHarvest.artifacts).2 = .ok [a.path, b.path] ∧
      respelledOutput.readContent (Path.join "out" a.path) =
        .ok (.bytes (Utf8.encode b.content)) ∧
      (([a.path, b.path].map fun path =>
        respelledOutput.fileAt? (Path.join "out" path)).dedup).length = 1 := by
  obtain ⟨a, b, hartifacts, hpathA, hpathB⟩ := respelledHarvest_eq
  have hok : (emptyDisk.publishAll "out" respelledHarvest.artifacts).2.toOption.isSome := by
    rw [respelledHarvest_artifacts]
    exact respelledFile_effect.2.2.2.2
  have hsame : Path.components b.path = Path.components a.path := by
    rw [hpathA, hpathB]
    decide
  obtain ⟨-, -, -, hpublished⟩ := harvest_files respelledSource_harvest
  cases hresult : (emptyDisk.publishAll "out" respelledHarvest.artifacts).2 with
  | error fault => rw [hresult] at hok; cases hok
  | ok paths =>
      obtain ⟨rfl, hread, -, hcount⟩ :=
        hpublished emptyDisk "out" paths rfl hresult respelledOutput_noLinks
      obtain ⟨front, last, back, hsplit, -, hback, hcontent⟩ :=
        hread a (hartifacts ▸ List.mem_cons_self)
      change (List.map (fun path => respelledOutput.fileAt? (Path.join "out" path)) _).dedup.length = _
        at hcount
      rw [hartifacts] at hsplit hcount
      -- Behind the last artifact with these components there is no other one, so it is the second.
      obtain rfl : last = b := by
        cases front with
        | nil =>
            obtain ⟨-, rfl⟩ := List.cons.inj hsplit
            exact absurd hsame (hback b List.mem_cons_self)
        | cons first front =>
            obtain ⟨-, hsplit⟩ := List.cons.inj hsplit
            cases front with
            | nil => exact (List.cons.inj hsplit).1.symm
            | cons second front => simp at hsplit
      refine ⟨a, last, hartifacts, ?_, ?_, hcontent, hcount.trans ?_⟩
      · rw [hpathA, hpathB]
        decide
      · rw [hartifacts]
        rfl
      · rw [List.map_cons, List.map_singleton, hpathA, hpathB]
        decide

end SampleHarvest
