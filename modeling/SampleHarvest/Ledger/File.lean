import SampleHarvest.Disk.Basic
import SampleHarvest.Ledger.Address

/-!
# Ledger files

A ledger is kept in a file, with a lock file beside it that has the name of its address with another
extension. Opening makes the folders above the address, the file and the lock file where they are
missing; an empty file becomes an empty ledger, and any other file that holds no ledger is refused.

What opening has made stays, also when a later step fails. A journal or a log that another run left
beside the file is removed.
-/

namespace SampleHarvest

structure OpenLedger where
  ledger : Ledger
  /-- The folder and the name of the file where the rows are kept, if they are kept in a file. -/
  place? : Option (Location × Text) := none
  isReadOnly : Bool := false
  /-- The name under which rows in no file are found again. -/
  sharedName? : Option Text := none
  deriving DecidableEq, Repr

namespace OpenLedger

def record (opened : OpenLedger) (recording : Recording) (policy : Policy) :
    Except Failure (Outcome × OpenLedger) :=
  if opened.isReadOnly then .error (.ledger .readOnly)
  else
    match opened.ledger.record recording policy with
    | .error clash => .error (.conflict clash.message)
    | .ok (outcome, ledger) => .ok (outcome, { opened with ledger })

/-- Removes a release with its files, and says whether it was there. -/
def remove (opened : OpenLedger) (name language : Text) : Except Failure (Bool × OpenLedger) :=
  if opened.isReadOnly then .error (.ledger .readOnly)
  else
    let (wasThere, ledger) := opened.ledger.remove name language
    .ok (wasThere, { opened with ledger })

end OpenLedger

namespace Disk

/-- The most bytes that the full path of a ledger file can have. -/
def maxLedgerPathSize : Nat := 504

/-- The most bytes that the full path of anything on the way to a ledger file can have. -/
def maxLedgerWalkSize : Nat := 511

/-- How many links the path of a ledger file can lead over. -/
def maxLedgerLinks : Nat := 201

def fullPathSize (location : Location) : Nat :=
  location.foldr (fun part size => Utf8.size part + 1 + size) 0

/-- How far the path of a ledger file leads without a link in its way: to a location, or to a link
from whose folder these parts are to be followed. -/
def ledgerSteps (root : Node) : Location → List Text →
    Option (Location × Option (List Text))
  | here, [] => some (here, none)
  | here, part :: rest =>
    if Path.isIdlePart part then ledgerSteps root here rest
    else if part = ".." then ledgerSteps root here.dropLast rest
    else
      let next := here ++ [part]
      if maxNameSize < Utf8.size part ∨ maxLedgerWalkSize < fullPathSize next then none
      else
        match root.get? next with
        | some (.link target) =>
          some (if Path.isAbsolute target then [] else here,
            some (Text.splitOn '/' target ++ rest))
        | some _ => ledgerSteps root next rest
        | none =>
          match root.get? here with
          | some (.file _) => none
          | _ => ledgerSteps root next rest

/-- The location that the path of a ledger file leads to. Names that are missing are passed over,
so that two dots can lead back from them. -/
def ledgerLocation? (root : Node) : (links : Nat) → Location → List Text → Option Location
  | links, here, parts =>
    match ledgerSteps root here parts with
    | none => none
    | some (location, none) =>
      if maxLedgerPathSize < fullPathSize location then none else some location
    | some (location, some parts) =>
      match links with
      | 0 => none
      | links + 1 => ledgerLocation? root links location parts

/-- The folder and the name of the ledger file at a path. -/
def ledgerPlace? (disk : Disk) (path : Path) : Option (Location × Text) := do
  let location ← ledgerLocation? disk.root maxLedgerLinks (disk.start path) (Text.splitOn '/' path)
  return (location.dropLast, ← location.getLast?)

/-- The file of a ledger, made if it is missing and may be made: its place and what it holds. -/
def ledgerFile (disk : Disk) (path : Path) (address : LedgerAddress) :
    Disk × Except LedgerFault (Option (Location × Text) × Content) :=
  if address.isInMemory then (disk, .ok (none, .bytes []))
  else
    match disk.ledgerPlace? address.path with
    | none => (disk, .error (.cannotOpen path))
    | some (folder, name) =>
      if address.model?.any fun model => !disk.has model then (disk, .error .noModel)
      else
        match disk.root.get? (folder ++ [name]) with
        | some (.file content) => (disk, .ok (some (folder, name), content))
        | some _ =>
          (disk, .error (if address.access = .read then .unreadable else .cannotOpen path))
        | none =>
          let hasFolder := (disk.root.get? folder).any Node.isFolder
          if hasFolder ∧ address.access = .create then
            (disk.put folder name (.file (.bytes [])), .ok (some (folder, name), .bytes []))
          else (disk, .error (.cannotOpen path))

/-- Makes an empty file at a path unless a file is there. -/
def touch (disk : Disk) (path : Path) : Except DiskFault Disk := do
  let (folder, name) ← disk.filePlace path
  match disk.root.get? (folder ++ [name]) with
  | some _ => return disk
  | none => return disk.put folder name (.file (.bytes []))

/-- The path of the lock file beside a ledger file. -/
def lockPath (path : Path) : Path := Path.withExtension path "lock"

/-- Whether a file is as good as empty. A single byte does not count. -/
def isBlankFile : Content → Bool
  | .ledger _ => false
  | .bytes bytes => bytes.length ≤ 1

/-- The rows that a ledger file holds. -/
def rowsOf : Content → Except LedgerFault Ledger
  | .ledger ledger => .ok ledger
  | .bytes bytes => if bytes.length ≤ 1 then .ok .empty else .error .notLedger

/-- The disk without the file of a name in a folder. Folders and links of this name stay. -/
def drop (disk : Disk) (folder : Location) (name : Text) : Disk :=
  match disk.root.get? (folder ++ [name]) with
  | some (.file _) => { disk with root := disk.root.erase folder name }
  | _ => disk

/-- The first byte of the file of a name in a folder; none for an empty file. -/
def firstByte? (disk : Disk) (folder : Location) (name : Text) : Option UInt8 :=
  match disk.root.get? (folder ++ [name]) with
  | some (.file (.bytes bytes)) => bytes.head?
  | _ => none

/-- The name of the journal of a ledger file. -/
def journalName (name : Text) : Text := name ++ "-journal"

/-- The name of the log of a ledger file. -/
def logName (name : Text) : Text := name ++ "-wal"

def logIndexName (name : Text) : Text := name ++ "-shm"

/-- Removes the journal that another run left beside a ledger file. Beside a file with rows, a zero
byte says that the journal is done with. -/
def dropJournal (disk : Disk) (folder : Location) (name : Text) (isBlank : Bool) : Disk :=
  match disk.firstByte? folder (journalName name) with
  | none => disk
  | some byte => if isBlank ∨ byte ≠ 0 then disk.drop folder (journalName name) else disk

/-- Removes the log that another run left beside a ledger file, and its index if there are rows. -/
def dropLog (disk : Disk) (folder : Location) (name : Text) (isBlank : Bool) : Disk :=
  match disk.firstByte? folder (logName name) with
  | none => disk
  | some _ =>
    let disk := disk.drop folder (logName name)
    if isBlank then disk else disk.drop folder (logIndexName name)

/-- Removes what another run left beside a ledger file. -/
def dropLeftovers (disk : Disk) (folder : Location) (name : Text) (content : Content) : Disk :=
  (disk.dropJournal folder name (isBlankFile content)).dropLog folder name (isBlankFile content)

/-- The disk with the rows of an open ledger in its file. -/
def storeLedger (disk : Disk) (opened : OpenLedger) : Disk :=
  match opened.place? with
  | some (folder, name) =>
    if opened.isReadOnly then disk
    else (disk.put folder name (.file (.ledger opened.ledger))).drop folder (journalName name)
  | none => disk

/-- The ledger that a file of this content becomes when it is opened at an address. -/
def openContent (address : LedgerAddress) (place? : Option (Location × Text)) (content : Content) :
    Except LedgerFault OpenLedger :=
  match rowsOf content with
  | .error fault => .error fault
  | .ok ledger =>
    if address.isReadOnly ∧ isBlankFile content then .error .readOnly
    else
      .ok { ledger, place?, isReadOnly := address.isReadOnly, sharedName? := address.sharedName? }

/-- Removes what another run left beside the file at a place, if that file may be changed. -/
def clearPlace (disk : Disk) (place? : Option (Location × Text)) (isReadOnly : Bool)
    (content : Content) : Disk :=
  match place? with
  | some (folder, name) => if isReadOnly then disk else disk.dropLeftovers folder name content
  | none => disk

/-- Locks the file of a ledger and reads its rows. -/
def readLedger (disk : Disk) (path : Path) (address : LedgerAddress)
    (place? : Option (Location × Text)) (content : Content) : Disk × Except Failure OpenLedger :=
  match disk.touch (lockPath path) with
  | .error fault =>
    (disk, .error (.storage ("failed to open lock " ++ lockPath path ++ ": " ++ fault.message)))
  | .ok disk =>
    let disk := disk.clearPlace place? address.isReadOnly content
    match openContent address place? content with
    | .error fault => (disk, .error (.ledger fault))
    | .ok opened => (disk.storeLedger opened, .ok opened)

/-- Makes the folders above a ledger file. -/
def createLedgerFolder (disk : Disk) (path : Path) : Disk × Except Failure Unit :=
  match Path.parent? path with
  | none => (disk, .ok ())
  | some folder =>
    match disk.createFolders folder with
    | (disk, .ok ()) => (disk, .ok ())
    | (disk, .error fault) =>
      (disk, .error (.storage
        ("failed to create ledger directory " ++ folder ++ ": " ++ fault.message)))

/-- The address that a text without the character that no name can hold stands for. -/
def ledgerAddress (path : Path) : Except LedgerFault LedgerAddress :=
  match path.findIdx? (· == '\x00') with
  | some index => .error (.nulByte (Utf8.size (path.take index)))
  | none => LedgerAddress.parse path

def openLedger (disk : Disk) (path : Path) : Disk × Except Failure OpenLedger :=
  match disk.createLedgerFolder path with
  | (disk, .error failure) => (disk, .error failure)
  | (disk, .ok ()) =>
    match ledgerAddress path with
    | .error fault => (disk, .error (.ledger fault))
    | .ok address =>
      match disk.ledgerFile path address with
      | (disk, .error fault) => (disk, .error (.ledger fault))
      | (disk, .ok (place?, content)) => disk.readLedger path address place? content

/-- Opens the ledger at a path while another one is open, whose rows it has if both have the same
shared name. -/
def reopenLedger (disk : Disk) (opened : OpenLedger) (path : Path) :
    Disk × Except Failure OpenLedger :=
  match disk.openLedger path with
  | (disk, .ok next) =>
    let isSame := next.sharedName?.isSome && next.sharedName? = opened.sharedName?
    (disk, .ok (if isSame then { next with ledger := opened.ledger } else next))
  | (disk, .error failure) => (disk, .error failure)

end Disk

end SampleHarvest
