import SampleHarvest.Ledger.Basic
import SampleHarvest.Text.Utf8

/-!
# Trees of files

A disk is a tree of folders, files and links. A file holds bytes or a ledger. A location is the list
of names that leads from the root to a node, and no link takes part in it.

Putting a node at a location keeps everything that is neither at that location nor below it.
-/

namespace SampleHarvest

/-- What a file holds. -/
inductive Content where
  | bytes (bytes : Bytes)
  | ledger (ledger : Ledger)
  deriving DecidableEq, Repr

/-- A file, a link or a folder. -/
inductive Node where
  | file (content : Content)
  | link (target : Path)
  | folder (entries : List (Text × Node))

/-- The names from the root to a node. -/
abbrev Location := List Text

namespace Node

/-- The node of a name among the entries of a folder. -/
def child? (name : Text) : List (Text × Node) → Option Node
  | [] => none
  | (other, node) :: entries => if other = name then some node else child? name entries

/-- The entries with this node under this name; a new name comes last. -/
def setEntry (name : Text) (node : Node) : List (Text × Node) → List (Text × Node)
  | [] => [(name, node)]
  | (other, old) :: entries =>
    if other = name then (name, node) :: entries else (other, old) :: setEntry name node entries

def dropEntry (name : Text) (entries : List (Text × Node)) : List (Text × Node) :=
  entries.filter fun entry => entry.1 ≠ name

/-- The entries of a folder; nothing else has any. -/
def entries : Node → List (Text × Node)
  | folder entries => entries
  | _ => []

def isFolder : Node → Bool
  | folder _ => true
  | _ => false

def get? (node : Node) : Location → Option Node
  | [] => some node
  | name :: location => (child? name node.entries).bind fun child => child.get? location

/-- Changes the entries of the folder at a location, if there is a folder. -/
def modifyFolder (node : Node) (change : List (Text × Node) → List (Text × Node)) :
    Location → Node
  | [] =>
    match node with
    | folder entries => folder (change entries)
    | other => other
  | name :: location =>
    match node with
    | folder entries =>
      match child? name entries with
      | some child => folder (setEntry name (child.modifyFolder change location) entries)
      | none => node
    | other => other

/-- The tree with a node under a name in the folder at a location. -/
def put (node : Node) (location : Location) (name : Text) (new : Node) : Node :=
  node.modifyFolder (setEntry name new) location

/-- The tree without a name in the folder at a location. -/
def erase (node : Node) (location : Location) (name : Text) : Node :=
  node.modifyFolder (dropEntry name) location

mutual

/-- The files of a tree with their paths, for a tree that has this path itself. -/
def filesAt (path : Path) : Node → List (Path × Content)
  | file content => [(path, content)]
  | link _ => []
  | folder entries => filesIn path entries

/-- The files among the entries of a folder with this path. -/
def filesIn (path : Path) : List (Text × Node) → List (Path × Content)
  | [] => []
  | (name, node) :: entries => filesAt (Path.join path name) node ++ filesIn path entries

end

/-- The files below a folder with their paths from it, in the order of the texts of the paths. -/
def listing (node : Node) : List (Path × Content) :=
  (filesIn [] node.entries).mergeSort fun a b => Text.le a.1 b.1

end Node

end SampleHarvest
