import SampleHarvest.Disk.Node
import SampleHarvest.Failure

/-!
# Disks

A disk is a tree with a working folder. A path is followed part by part; two dots lead to the folder
above where one stands, and a link is replaced by the path it stands for, at most forty times. Files
have no owners and no permissions: what a path leads to can be read, and can be written if it is a
file.

Every change names one folder and one name in it, found by following a path. Making a folder with
all that are missing above it keeps what it has made, also when it fails further down.
-/

namespace SampleHarvest

/-- A tree of files and the folder where relative paths begin. -/
structure Disk where
  root : Node
  workingFolder : Location

namespace Disk

/-- How far a path without a link in its way leads. -/
inductive Step where
  | arrived (location : Location) (node : Node)
  | absent (folder : Location) (name : Text)
  | redirected (folder : Location) (parts : List Text)

def maxNameSize : Nat := 255

def maxPathSize : Nat := 4095

/-- How many links a path can lead over. -/
def maxLinks : Nat := 40

/-- The parts that follow a link, with the folder where they begin. -/
def Step.ofLink (folder : Location) (target : Path) (rest : List Text) : Step :=
  .redirected (if Path.isAbsolute target then [] else folder) (Text.splitOn '/' target ++ rest)

/-- Follows parts from a folder up to the first link. The last name may be a link itself, which is
then followed only if `follows` says so. -/
def steps (root : Node) (follows : Bool) : Location → List Text → Except DiskFault Step
  | here, [] =>
    match root.get? here with
    | some node => .ok (.arrived here node)
    | none => .error .missing
  | here, part :: rest =>
    if Path.isIdlePart part then steps root follows here rest
    else if part = ".." then steps root follows here.dropLast rest
    else if maxNameSize < Utf8.size part then .error .nameTooLong
    else
      match root.get? (here ++ [part]) with
      | none => if rest.all List.isEmpty then .ok (.absent here part) else .error .missing
      | some (.folder _) => steps root follows (here ++ [part]) rest
      | some (.link target) =>
        if rest.all List.isEmpty ∧ !follows then .ok (.arrived (here ++ [part]) (.link target))
        else .ok (.ofLink here target rest)
      | some (.file content) =>
        if rest.isEmpty then .ok (.arrived (here ++ [part]) (.file content))
        else .error .notFolder

/-- Where a path leads. -/
inductive Place where
  | present (location : Location) (node : Node)
  | vacant (folder : Location) (name : Text)

/-- Follows parts from a folder over at most `links` links. -/
def walk (root : Node) (follows : Bool) : (links : Nat) → Location → List Text →
    Except DiskFault Place
  | links, here, parts =>
    match steps root follows here parts with
    | .error fault => .error fault
    | .ok (.arrived location node) => .ok (.present location node)
    | .ok (.absent folder name) => .ok (.vacant folder name)
    | .ok (.redirected folder parts) =>
      match links with
      | 0 => .error .tooManyLinks
      | links + 1 => walk root follows links folder parts

def parts (path : Path) : Except DiskFault (List Text) :=
  if path.any (· == '\x00') then .error .nulInName
  else if path.isEmpty then .error .missing
  else if maxPathSize < Utf8.size path then .error .nameTooLong
  else .ok (Text.splitOn '/' path)

/-- The folder where a path begins. -/
def start (disk : Disk) (path : Path) : Location :=
  if Path.isAbsolute path then [] else disk.workingFolder

/-- Where a path leads; a link at its end is followed only if `follows` says so. -/
def locate (disk : Disk) (follows : Bool) (path : Path) : Except DiskFault Place := do
  walk disk.root follows maxLinks (disk.start path) (← parts path)

def node (disk : Disk) (path : Path) : Except DiskFault Node :=
  match disk.locate true path with
  | .ok (.present _ node) => .ok node
  | .ok (.vacant _ _) => .error .missing
  | .error fault => .error fault

/-- Whether a path leads anywhere. -/
def has (disk : Disk) (path : Path) : Bool := (disk.node path).toBool

def hasFolder (disk : Disk) (path : Path) : Bool :=
  match disk.node path with
  | .ok node => node.isFolder
  | .error _ => false

/-- The entries of the folder that a path leads to. -/
def readFolder (disk : Disk) (path : Path) : Except DiskFault (List (Text × Node)) :=
  match disk.node path with
  | .ok (.folder entries) => .ok entries
  | .ok _ => .error .notFolder
  | .error fault => .error fault

/-- What the file that a path leads to holds. -/
def readContent (disk : Disk) (path : Path) : Except DiskFault Content :=
  match disk.node path with
  | .ok (.file content) => .ok content
  | .ok (.folder _) => .error .isFolder
  | .ok (.link _) => .error .missing
  | .error fault => .error fault

/-- The text of the file that a path leads to. -/
def readText (disk : Disk) (path : Path) : Except DiskFault Text :=
  match disk.readContent path with
  | .ok (.bytes bytes) =>
    match Utf8.decode? bytes with
    | some text => .ok text
    | none => .error .notText
  | .ok (.ledger _) => .error .notText
  | .error fault => .error fault

def put (disk : Disk) (folder : Location) (name : Text) (node : Node) : Disk :=
  { disk with root := disk.root.put folder name node }

/-- The place of a file that parts lead to and that is still to be made. A link that ends with a slash
leads to no file, and in a folder that is gone nothing can be made. -/
def vacantPlace (disk : Disk) (start : Location) (parts : List Text) (folder : Location)
    (name : Text) : Except DiskFault (Location × Text) :=
  match walk (disk.put folder name (.file (.bytes []))).root true maxLinks start parts with
  | .ok (.present _ _) => .ok (folder, name)
  | .ok (.vacant _ _) => .error .missing
  | .error _ => .error .isFolder

/-- The folder and the name in it where a file of this path is to stand. -/
def filePlace (disk : Disk) (path : Path) : Except DiskFault (Location × Text) := do
  let parts ← parts path
  if path.endsWith "/" then
    let above := (parts.reverse.dropWhile List.isEmpty).tail.reverse
    match walk disk.root true maxLinks (disk.start path) above with
    | .ok _ => .error .isFolder
    | .error fault => .error fault
  else
    match ← walk disk.root true maxLinks (disk.start path) parts with
    | .vacant folder name => disk.vacantPlace (disk.start path) parts folder name
    | .present location (.file _) =>
      match location.getLast? with
      | some name => .ok (location.dropLast, name)
      | none => .error .isFolder
    | .present _ _ => .error .isFolder

def writeFile (disk : Disk) (path : Path) (content : Content) : Except DiskFault Disk := do
  let (folder, name) ← disk.filePlace path
  return disk.put folder name (.file content)

def writeText (disk : Disk) (path : Path) (text : Text) : Except DiskFault Disk :=
  disk.writeFile path (.bytes (Utf8.encode text))

/-- The disk with a new node at a path that leads nowhere yet. -/
def create (disk : Disk) (path : Path) (new : Node) : Except DiskFault Disk := do
  match ← disk.locate false path with
  | .vacant folder name =>
    if (disk.root.get? folder).any Node.isFolder then return disk.put folder name new
    else .error .missing
  | .present _ _ => .error .occupied

/-- The disk with a new empty folder at a path. -/
def createFolder (disk : Disk) (path : Path) : Except DiskFault Disk :=
  disk.create path (.folder [])

/-- A path and the paths of the folders above it, from the inside to the outside, without the root
and the empty path. -/
def folderPaths : (steps : Nat) → Path → List Path
  | 0, _ => []
  | steps + 1, path =>
    match Path.parent? path with
    | none => []
    | some above => path :: folderPaths steps above

/-- Makes the first of these folders, and before it those of the others that are missing. -/
def createChain (disk : Disk) : List Path → Disk × Except DiskFault Unit
  | [] => (disk, .ok ())
  | path :: above =>
    match disk.createFolder path with
    | .ok disk => (disk, .ok ())
    | .error .missing =>
      match disk.createChain above with
      | (disk, .error fault) => (disk, .error fault)
      | (disk, .ok ()) =>
        match disk.createFolder path with
        | .ok disk => (disk, .ok ())
        | .error .occupied =>
          if disk.hasFolder path then (disk, .ok ()) else (disk, .error .occupied)
        | .error fault => (disk, .error fault)
    | .error .occupied =>
      if disk.hasFolder path then (disk, .ok ()) else (disk, .error .occupied)
    | .error fault => (disk, .error fault)

/-- Makes a folder and those above it that are missing. The empty path needs none. -/
def createFolders (disk : Disk) (path : Path) : Disk × Except DiskFault Unit :=
  disk.createChain (folderPaths (path.length + 1) path)

/-- The files below the folder that a path leads to. -/
def listing (disk : Disk) (path : Path) : List (Path × Content) :=
  match disk.node path with
  | .ok node => node.listing
  | .error _ => []

/-- The disk without the node that a path leads to; a link is removed and not what it stands for. -/
def delete (disk : Disk) (path : Path) : Except DiskFault Disk := do
  match ← disk.locate false path with
  | .vacant _ _ => .error .missing
  | .present location _ =>
    match location.getLast? with
    | none => .error .isFolder
    | some name => return { disk with root := disk.root.erase location.dropLast name }

end Disk

end SampleHarvest
