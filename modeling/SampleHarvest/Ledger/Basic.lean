import SampleHarvest.Calendar.Instant
import SampleHarvest.Path.Basic

/-!
# The ledger

The ledger remembers which releases are published and which files each of them owns. A release is
known by its name and language together, and a file belongs to one release only.

Recording replaces or refuses a release that is already there, as the policy says. It either does
all of its work or changes nothing: the rows that a recording would clash with are looked for before
the first one is added.
-/

namespace SampleHarvest

structure ReleaseRow where
  id : Nat
  name : Text
  language : Text
  tag : Text
  package : Text
  version : Text
  /-- The second of publication since the start of 1970. -/
  published : Int
  deriving DecidableEq, Repr

structure FileRow where
  id : Nat
  /-- The path of the file below the output root. -/
  path : Path
  /-- The number of the release that owns the file. -/
  releaseId : Nat
  deriving DecidableEq, Repr

/-- What happens to a release that is already recorded. -/
inductive Policy where
  | reject
  | replace
  deriving DecidableEq, Repr

namespace Policy

def name : Policy → Text
  | reject => "reject"
  | replace => "replace"

/-- The policy of exactly this name, which is how one is stored. -/
def ofName? (t : Text) : Option Policy :=
  if t = "reject" then some reject else if t = "replace" then some replace else none

/-- The policy that a user means by a text. -/
def parse? (t : Text) : Option Policy :=
  let spelling := t.trim.lower
  if spelling = "upsert" then some replace else ofName? spelling

/-- What is said about a text that means no policy. -/
def unknownMessage (t : Text) : Text :=
  "unknown duplicate policy '" ++ t.trim.lower ++ "' (expected reject or replace)"

end Policy

/-- What a recording did. -/
inductive Outcome where
  | written
  | duplicate
  | replaced
  deriving DecidableEq, Repr

def Outcome.name : Outcome → Text
  | written => "written"
  | duplicate => "duplicate"
  | replaced => "replaced"

structure Recording where
  name : Text
  language : Text
  tag : Text
  package : Text
  version : Text
  /-- The time of publication, of which the whole second is kept. -/
  published : Instant
  /-- The paths of its files; one that comes again counts once. -/
  files : List Path
  deriving DecidableEq, Repr

/-- A file that another release owns. -/
structure Clash where
  path : Path
  name : Text
  language : Text
  deriving DecidableEq, Repr

/-- What is said about a clash. -/
def Clash.message (clash : Clash) : Text :=
  clash.path ++ " is already recorded for " ++ clash.language ++ "#" ++ clash.name

/-- The rows of all releases and files, each table in ascending order of the row numbers. -/
structure Ledger where
  releases : List ReleaseRow
  files : List FileRow
  deriving DecidableEq, Repr

namespace Ledger

def empty : Ledger := ⟨[], []⟩

/-- One more than the greatest of these numbers, so the number of the last row is used again after
that row is gone. -/
def nextId (ids : List Nat) : Nat := ids.foldl max 0 + 1

def find? (ledger : Ledger) (name language : Text) : Option ReleaseRow :=
  ledger.releases.find? fun row => row.name = name ∧ row.language = language

def isRecorded (ledger : Ledger) (name language : Text) : Bool :=
  (ledger.find? name language).isSome

/-- The ledger without a release and its files. -/
def erase (ledger : Ledger) (id : Nat) : Ledger :=
  { releases := ledger.releases.filter fun row => row.id ≠ id
    files := ledger.files.filter fun row => row.releaseId ≠ id }

def owner? (ledger : Ledger) (path : Path) : Option ReleaseRow := do
  let file ← ledger.files.find? fun row => row.path = path
  ledger.releases.find? fun row => row.id = file.releaseId

def clash? (ledger : Ledger) (paths : List Path) : Option Clash :=
  paths.findSome? fun path => (ledger.owner? path).map fun row => ⟨path, row.name, row.language⟩

def fileRows (releaseId : Nat) : (first : Nat) → List Path → List FileRow
  | _, [] => []
  | first, path :: paths => ⟨first, path, releaseId⟩ :: fileRows releaseId (first + 1) paths

/-- The ledger with a new release and its files at the end. -/
def insert (ledger : Ledger) (recording : Recording) : Ledger :=
  let id := nextId (ledger.releases.map ReleaseRow.id)
  { releases := ledger.releases ++
      [{ id
         name := recording.name
         language := recording.language
         tag := recording.tag
         package := recording.package
         version := recording.version
         published := recording.published.seconds }]
    files := ledger.files ++
      fileRows id (nextId (ledger.files.map FileRow.id)) (Text.distinct recording.files) }

/-- Records a release in a ledger from which an earlier one of its name is gone. -/
def insertFresh (ledger : Ledger) (recording : Recording) (outcome : Outcome) :
    Except Clash (Outcome × Ledger) :=
  match ledger.clash? (Text.distinct recording.files) with
  | some clash => .error clash
  | none => .ok (outcome, ledger.insert recording)

def record (ledger : Ledger) (recording : Recording) (policy : Policy) :
    Except Clash (Outcome × Ledger) :=
  match ledger.find? recording.name recording.language, policy with
  | none, _ => ledger.insertFresh recording .written
  | some _, .reject => .ok (.duplicate, ledger)
  | some row, .replace => (ledger.erase row.id).insertFresh recording .replaced

/-- Removes a release with its files, and says whether it was there. -/
def remove (ledger : Ledger) (name language : Text) : Bool × Ledger :=
  match ledger.find? name language with
  | none => (false, ledger)
  | some row => (true, ledger.erase row.id)

/-- Whether a language passes a filter; without a filter all pass. -/
def passes (filter? : Option Text) (language : Text) : Bool := filter?.all (· == language)

/-- Whether one row comes before another or equals it by language, package, version and name. -/
def comesBefore (a b : ReleaseRow) : Bool :=
  if a.language ≠ b.language then Text.le a.language b.language
  else if a.package ≠ b.package then Text.le a.package b.package
  else if a.version ≠ b.version then Text.le a.version b.version
  else Text.le a.name b.name

/-- The releases of one language, or all, by language, package, version and name. -/
def list (ledger : Ledger) (filter? : Option Text) : List ReleaseRow :=
  (ledger.releases.filter fun row => passes filter? row.language).mergeSort comesBefore

/-- The files of a release in the order of their paths. -/
def filesOf (ledger : Ledger) (name language : Text) : List Path :=
  match ledger.find? name language with
  | none => []
  | some row =>
    Text.sort ((ledger.files.filter fun file => file.releaseId = row.id).map FileRow.path)

end Ledger

end SampleHarvest
