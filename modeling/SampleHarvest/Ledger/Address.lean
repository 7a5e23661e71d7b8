import SampleHarvest.Failure
import SampleHarvest.Path.Basic
import SampleHarvest.Text.Utf8

/-!
# Ledger addresses

A ledger is named by a path, or by an address that begins with a scheme. An address may name a host,
escapes characters by their bytes, and may end with parameters that say how the file is used and
with a fragment that says nothing.

An empty path and one special name stand for a ledger in no file. An escaped zero byte ends the part
that it stands in.
-/

namespace SampleHarvest

/-- How a ledger file may be used. -/
inductive Access where
  | read
  | write
  | create
  | noFile
  deriving DecidableEq, Repr

/-- How far the words for access go. A later word may not go further than an earlier one. -/
def Access.rank : Access → Nat
  | read => 1
  | write => 2
  | create => 6
  | noFile => 0

/-- How far a word for access may go behind this one. -/
def Access.limit : Access → Nat
  | noFile => 128
  | access => access.rank

/-- The access that a word stands for. -/
def Access.ofName? (t : Text) : Option Access :=
  if t = "ro" then some read
  else if t = "rw" then some write
  else if t = "rwc" then some create
  else if t = "memory" then some noFile
  else none

structure LedgerAddress where
  path : Path
  access : Access := .create
  /-- Whether ledgers of the same path in no file have the same rows. -/
  isShared : Bool := false
  /-- Whether the rows are kept in no file, whatever the access is. -/
  isVolatile : Bool := false
  isFixed : Bool := false
  /-- The file from which a new one takes its permissions. -/
  model? : Option Path := none
  deriving DecidableEq, Repr

namespace LedgerAddress

/-- The name that stands for a ledger in no file. -/
def memoryName : Path := ":memory:"

def scheme : Text := "file:"

def hexValue? (c : Char) : Option Nat :=
  if c.isDigit then some (c.toNat - 48)
  else if 'a' ≤ c ∧ c ≤ 'f' then some (c.toNat - 87)
  else if 'A' ≤ c ∧ c ≤ 'F' then some (c.toNat - 55)
  else none

/-- The byte that a percent sign and two digits stand for. -/
def escaped? : Text → Option UInt8
  | '%' :: high :: low :: _ => do
    return (16 * (← hexValue? high) + (← hexValue? low)).toUInt8
  | _ => none

/-- The bytes of a text with escapes, after leaving out some characters. -/
def bytesFrom : (skip : Nat) → Text → Bytes
  | _, [] => []
  | skip + 1, _ :: t => bytesFrom skip t
  | 0, c :: t =>
    match escaped? (c :: t) with
    | some byte => if byte = 0 then [] else byte :: bytesFrom 2 t
    | none => Utf8.encodeChar c ++ bytesFrom 0 t

/-- A text with its escapes replaced by what they stand for. -/
def unescape (t : Text) : Text := Utf8.decodeLossy (bytesFrom 0 t)

/-- The name and the value of a parameter. -/
def parameter (t : Text) : Text × Text :=
  match Text.splitFirst? '=' t with
  | some (name, value) => (unescape name, unescape value)
  | none => (unescape t, [])

def parameters (t : Text) : List (Text × Text) :=
  ((Text.splitOn '&' t).map parameter).filter fun (name, _) => !name.isEmpty

/-- Whether digits stand for a number whose last byte is not zero. Numbers of more than thirty-one
bits count as zero. -/
def isNonzero (digits : Text) : Bool :=
  let number := digits.foldl (fun n c => 10 * n + (c.toNat - 48)) 0
  number ≤ 2147483647 && number % 256 != 0

def isYes (value : Text) : Bool :=
  match value with
  | [] => false
  | c :: _ =>
    if c.isDigit then isNonzero (value.takeWhile Char.isDigit)
    else value.lower = "on" || value.lower = "yes" || value.lower = "true"

/-- The first value of a parameter. -/
def first? (name : Text) (given : List (Text × Text)) : Option Text := given.lookup name

/-- The last value of a parameter. -/
def last? (name : Text) (given : List (Text × Text)) : Option Text := given.reverse.lookup name

/-- The access that the parameters leave. -/
def accessOf : Access → List (Text × Text) → Except LedgerFault Access
  | access, [] => .ok access
  | access, (name, value) :: rest =>
    if name = "mode" then
      match Access.ofName? value with
      | none => .error (.unknownMode "access" value)
      | some next =>
        if access.limit < next.rank then .error (.forbiddenMode value) else accessOf next rest
    else if name = "cache" ∧ value ≠ "shared" ∧ value ≠ "private" then
      .error (.unknownMode "cache" value)
    else accessOf access rest

/-- The names of what can keep the rows in files. -/
def fileKeepers : List Text := ["unix", "unix-none", "unix-dotfile", "unix-excl"]

/-- The name of what keeps the rows in no file. -/
def volatileKeeper : Text := "memdb"

/-- The address that a path and parameters make. -/
def ofParts (path : Path) (given : List (Text × Text)) : Except LedgerFault LedgerAddress := do
  let access ← accessOf .create given
  let keeper := (last? "vfs" given).getD "unix"
  if !fileKeepers.contains keeper ∧ keeper ≠ volatileKeeper then throw (.unknownKeeper keeper)
  return { path
           access
           isShared := last? "cache" given = some "shared"
           isVolatile := keeper = volatileKeeper
           isFixed := (first? "immutable" given).any isYes
           model? := first? "modeof" given }

/-- The rest of an address behind its host, if it names none but this machine. -/
def dropHost (t : Text) : Except LedgerFault Text :=
  match t.after? "//" with
  | none => .ok t
  | some t =>
    let host := t.takeWhile (· ≠ '/')
    if host.isEmpty ∨ host = "localhost" then .ok (t.drop host.length)
    else .error (.unknownHost host)

/-- Reads what names a ledger. -/
def parse (t : Text) : Except LedgerFault LedgerAddress :=
  match t.after? scheme with
  | none => .ok { path := t }
  | some t => do
    let t := (← dropHost t).takeWhile (· ≠ '#')
    match Text.splitFirst? '?' t with
    | none => ofParts (unescape t) []
    | some (path, given) => ofParts (unescape path) (parameters given)

/-- Whether the rows are kept in no file. -/
def isInMemory (address : LedgerAddress) : Bool :=
  address.path.isEmpty || address.path = memoryName || address.access = .noFile ||
    address.isVolatile

/-- Whether the rows may not be changed. -/
def isReadOnly (address : LedgerAddress) : Bool :=
  address.access = .read ||
    (address.isFixed && !address.path.isEmpty && address.path ≠ memoryName &&
      address.access ≠ .noFile)

/-- The name under which rows in no file are found again while they are in use. -/
def sharedName? (address : LedgerAddress) : Option Text :=
  let isRooted := address.isVolatile && address.access ≠ .noFile &&
    1 < address.path.length && Path.isAbsolute address.path
  if address.isInMemory ∧ !address.path.isEmpty ∧ (address.isShared ∨ isRooted) then
    some address.path
  else none

end LedgerAddress

end SampleHarvest
