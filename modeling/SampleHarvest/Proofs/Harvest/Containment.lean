import SampleHarvest.Proofs.Disk.Confinement
import SampleHarvest.Proofs.Harvest.Artifacts

/-!
# Output containment

References come out of source files and may say anything. Only contained targets become artifacts,
so the paths of the artifacts of a harvest have names only, whatever the sources are. Below an output
root they add names to those of the root, and a publication changes nothing outside of it.
-/

namespace SampleHarvest

namespace Disk

theorem publish_confined {artifact : Artifact} (hcontained : artifact.target.isContained)
    (disk : Disk) (root : Path) : Confined disk (disk.publish root artifact).1 root := by
  have hfolders : Confined disk
      (disk.createFolders ((Path.parent? (Path.join root artifact.path)).getD [])).1 root :=
    createFolders_confined hcontained disk
  rw [publish]
  generalize disk.createFolders ((Path.parent? (Path.join root artifact.path)).getD []) = made
    at hfolders
  obtain ⟨made, result⟩ := made
  cases result with
  | error fault => exact hfolders
  | ok _ =>
      dsimp only at hfolders ⊢
      cases hwrite : made.writeText (Path.join root artifact.path) artifact.content with
      | error fault => exact hfolders
      | ok disk' => exact hfolders.trans (writeText_confined hcontained hwrite)

/-- A publication changes a disk in the output root only, whether it succeeds or not. -/
theorem publishAll_confined {artifacts : List Artifact}
    (hcontained : ∀ artifact ∈ artifacts, artifact.target.isContained) (disk : Disk) (root : Path) :
    Confined disk (disk.publishAll root artifacts).1 root := by
  induction artifacts generalizing disk with
  | nil => exact .refl disk root
  | cons artifact artifacts ih =>
      have hfirst := publish_confined (hcontained artifact List.mem_cons_self) disk root
      have hrest := ih fun other hother => hcontained other (List.mem_cons_of_mem _ hother)
      rw [publishAll]
      generalize disk.publish root artifact = made at hfirst
      obtain ⟨made, result⟩ := made
      cases result with
      | error fault => exact hfirst
      | ok _ =>
          have hall := hfirst.trans (hrest made)
          dsimp only at hall ⊢
          generalize made.publishAll root artifacts = last at hall
          obtain ⟨last, result⟩ := last
          cases result <;> exact hall

end Disk

/-- **Output containment.** Whatever the sources say, every artifact of a harvest has a relative path
that is not empty and leads nowhere up. Below an output root the path adds at least one name to what
the root has, and a publication is confined to the root: if the root is there, and no links lead out
of it, nothing else on the disk changes. Any target at all has a place below a root
exactly if its file name is not empty and its path is relative, leads nowhere up and does not begin
with a dot. -/
theorem harvest_contained :
    (∀ (target : Target) (root : Path), (target.resolveUnder? root).isSome ↔
      target.stem ≠ [] ∧ ¬Path.isAbsolute target.documentPath ∧
        .up ∉ Path.components target.documentPath ∧
        (Path.components target.documentPath).head? ≠ some .here) ∧
    ∀ (harvester : Harvester) (disk : Disk) (sources : Path) (harvest : Harvest),
      harvester.harvest disk sources = .ok harvest →
      (∀ artifact ∈ harvest.artifacts,
        artifact.path ≠ [] ∧ ¬Path.isAbsolute artifact.path ∧
          .up ∉ Path.components artifact.path ∧
          ∀ root, ∃ names, names ≠ [] ∧ (∀ name ∈ names, Path.IsFileName name) ∧
            Path.components (Path.join root artifact.path) =
              Path.components root ++ names.map Path.Component.name) ∧
      ∀ (out : Disk) (root : Path),
        let new := (out.publishAll root harvest.artifacts).1
        Disk.Confined out new root ∧
          (new.NoLinksIn root → ∀ base, out.RootAt root base → ∀ location,
            ¬new.IsInside root location → new.root.look location = out.root.look location) := by
  refine ⟨fun target root => target.resolveUnder?_isSome_iff root, ?_⟩
  intro harvester disk sources harvest h
  obtain ⟨hcontained, -⟩ := Harvester.harvest_artifacts h
  refine ⟨fun artifact hmem => ?_, fun out root => ?_⟩
  case refine_2 =>
    have hconfined := Disk.publishAll_confined hcontained out root
    exact ⟨hconfined, fun hlinks base hroot location => hconfined.look_eq hlinks hroot⟩
  have hartifact := hcontained artifact hmem
  obtain ⟨-, hrelative, hup, -⟩ := Target.isContained_iff.mp hartifact
  refine ⟨?_, hrelative, hup, Target.components_join hartifact⟩
  obtain ⟨text, hne, htext⟩ := Target.exists_documentPath hartifact
  unfold Artifact.path
  rw [htext]
  exact List.append_ne_nil_of_left_ne_nil hne _

/-- A disk with a source file in which one marker climbs and another one seems to. -/
def climbingSource : Disk where
  root := .folder [("in", .folder [("a_test.go", .file (.bytes (Utf8.encode (
    ("// x-ms-original-file: ../examples/A.json\nfunc A() \x7b\n\x7d\n" : Text) ++
      "// x-ms-original-file: /..\\B.json\nfunc B() \x7b\n\x7d\n"))))])]
  workingFolder := []

def acceptingHarvester : Harvester :=
  .of .go { tag := "1", package := "p", version := "1", sdkName := "p" } none .acceptAll

/-- A harvest to which the theorem above applies. The first marker gives no artifact, and the second
one gives one in a folder whose name begins with two dots. -/
theorem harvest_contained_climbingSource :
    ∃ harvest, acceptingHarvester.harvest climbingSource "in" = .ok harvest ∧
      harvest.artifacts.map Artifact.path = [("..-go/B.md" : Path)] ∧
      (∀ artifact ∈ harvest.artifacts, .up ∉ Path.components artifact.path) ∧
      Disk.Confined climbingSource (climbingSource.publishAll "x/out" harvest.artifacts).1
        "x/out" := by
  have hpaths : (acceptingHarvester.harvest climbingSource "in").toOption.map
      (fun harvest => harvest.artifacts.map Artifact.path) = some [("..-go/B.md" : Path)] := by
    decide +kernel
  cases hharvest : acceptingHarvester.harvest climbingSource "in" with
  | error failure =>
      rw [hharvest] at hpaths
      cases hpaths
  | ok harvest =>
      rw [hharvest] at hpaths
      obtain ⟨hartifacts, hconfined⟩ := harvest_contained.2 _ _ _ harvest hharvest
      exact ⟨harvest, rfl, Option.some.inj hpaths,
        fun artifact hmem => (hartifacts artifact hmem).2.2.1,
        (hconfined climbingSource "x/out").1⟩

end SampleHarvest
