import SampleHarvest.Harvest.Basic

/-!
# Publication

The artifacts of a harvest are written below an output root, one after the other and each in its
folder, which is made where it is missing. The first write that fails ends it, and what has been
written until then stays.
-/

namespace SampleHarvest

namespace Disk

/-- Writes the document of an artifact below an output root. -/
def publish (disk : Disk) (root : Path) (artifact : Artifact) : Disk × Except DiskFault Unit :=
  let path := Path.join root artifact.path
  match disk.createFolders ((Path.parent? path).getD []) with
  | (disk, .error fault) => (disk, .error fault)
  | (disk, .ok ()) =>
    match disk.writeText path artifact.content with
    | .ok disk => (disk, .ok ())
    | .error fault => (disk, .error fault)

/-- Writes the documents of artifacts below an output root, and gives their paths below it. -/
def publishAll (disk : Disk) (root : Path) : List Artifact → Disk × Except DiskFault (List Path)
  | [] => (disk, .ok [])
  | artifact :: artifacts =>
    match disk.publish root artifact with
    | (disk, .error fault) => (disk, .error fault)
    | (disk, .ok ()) =>
      match disk.publishAll root artifacts with
      | (disk, .error fault) => (disk, .error fault)
      | (disk, .ok paths) => (disk, .ok (artifact.path :: paths))

end Disk

end SampleHarvest
