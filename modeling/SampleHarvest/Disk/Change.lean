import SampleHarvest.Disk.Node

/-!
# Changes to a tree

What a run did to a tree of files is told by the trees before and after: the folders that are new
and the files that are new or hold something else. A folder comes before what is in it. Runs remove
nothing, so removals are not told.
-/

namespace SampleHarvest

inductive Change where
  | folder (path : Path)
  | file (path : Path) (content : Content)
  deriving DecidableEq, Repr

namespace Change

mutual

def between (path : Path) (old? : Option Node) : Node → List Change
  | .link _ => []
  | .file content =>
    match old? with
    | some (.file old) => if old = content then [] else [.file path content]
    | _ => [.file path content]
  | .folder entries =>
    match old? with
    | some (.folder old) => betweenEntries path old entries
    | _ => .folder path :: betweenEntries path [] entries

/-- The changes among the entries of a folder. -/
def betweenEntries (path : Path) (old : List (Text × Node)) : List (Text × Node) → List Change
  | [] => []
  | (name, node) :: entries =>
    between (Path.join path name) (Node.child? name old) node ++ betweenEntries path old entries

end

def all (old new : Node) : List Change := between "/" (some old) new

end Change

end SampleHarvest
