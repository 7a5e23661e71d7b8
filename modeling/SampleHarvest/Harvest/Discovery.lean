import SampleHarvest.Dialect.Rules
import SampleHarvest.Disk.Basic

/-!
# Discovery

The candidate files below a folder are the files whose name the dialect accepts. Links are not
followed, and folders with a hidden name or one of a few special names are left out with all that is
in them.

Every folder is read by its path, and the first that cannot be read ends the search. The files come
in the order of their paths, whatever the order of the entries in the folders is.
-/

namespace SampleHarvest

/-- The names of folders that hold no sources of their own. -/
def skippedFolders : List Text := ["node_modules", "target"]

def isSkippedFolder (name : Text) : Bool := Text.startsWith name "." || skippedFolders.contains name

namespace Search

/-- The folder to be read later that an entry of a folder stands for. -/
def subfolder (folder : Path) : Text × Node → List Path
  | (name, .folder _) => if isSkippedFolder name then [] else [Path.join folder name]
  | (_, .file _) => []
  | (_, .link _) => []

/-- The candidate file that an entry of a folder stands for. -/
def sample (rules : DialectRules) (folder : Path) : Text × Node → List Path
  | (name, .file _) => if rules.acceptsFileName name then [Path.join folder name] else []
  | (_, .folder _) => []
  | (_, .link _) => []

end Search

namespace Disk

/-- The candidate files below a folder. The folders among its entries are read after it, the last one
first. A path is longer than that of the folder above and cannot be read when it is too long, so no
folder is deeper than a path can be. -/
def search (disk : Disk) (rules : DialectRules) : (depth : Nat) → Path →
    Except DiskFault (List Path)
  | 0, _ => .error .nameTooLong
  | depth + 1, folder => do
    let entries ← disk.readFolder folder
    let below ← (entries.flatMap (Search.subfolder folder)).reverse.mapM (disk.search rules depth)
    return entries.flatMap (Search.sample rules folder) ++ below.flatten

/-- The candidate files below the folder that a path leads to. -/
def discover (disk : Disk) (rules : DialectRules) (sources : Path) : Except Failure (List Path) :=
  if disk.hasFolder sources then
    match disk.search rules maxPathSize sources with
    | .ok files => .ok (files.mergeSort Path.le)
    | .error fault => .error (.io fault)
  else .error (.notFound ("sources directory " ++ sources ++ " does not exist"))

end Disk

end SampleHarvest
