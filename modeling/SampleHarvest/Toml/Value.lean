import SampleHarvest.Toml.Reader
import SampleHarvest.Toml.Written

/-!
# TOML values

A document is a table of values. Tables are built statement by statement, and how a table came into
being decides what may still be added to it: headers may complete a table that they only passed
through, dotted keys may go on with a table that dotted keys began, and nothing is said twice.

Fractions and points in time are kept as texts, because no setting has such a value.
-/

namespace SampleHarvest

namespace Toml

/-- How a table came into being. -/
inductive Origin where
  | implied
  | dotted
  /-- It has a header of its own, or is the document. -/
  | defined
  | inline
  deriving DecidableEq, Repr

end Toml

/-- A value of a document. -/
inductive Toml where
  | string (value : Text)
  | integer (value : Int)
  | boolean (value : Bool)
  /-- A number with a point or an exponent, in its shortest form. -/
  | fraction (text : Text)
  /-- A date, a time of day or both, as it was written. -/
  | time (written : Text)
  | array (elements : List Toml)
  | tables (tables : List (List (Text × Toml)))
  | table (origin : Toml.Origin) (entries : List (Text × Toml))

namespace Toml

abbrev Entries := List (Text × Toml)

/-- The kind of a value that is no table with a place for more keys. -/
def kindName : Toml → Text
  | string _ => "string"
  | integer _ => "integer"
  | boolean _ => "boolean"
  | fraction _ => "float"
  | time _ => "datetime"
  | array _ => "array"
  | tables _ => "array of tables"
  | table .inline _ => "inline table"
  | table _ _ => "table"

/-- Why a statement cannot be carried out. -/
inductive Clash where
  | duplicate (key : Text) (table? : Option (List Text))
  | noTable (path : List Text) (kind : Text)
  deriving DecidableEq, Repr

/-- What is said about a clash. -/
def Clash.message : Clash → Text
  | duplicate key none => "duplicate key " ++ mark key
  | duplicate key (some []) => "duplicate key " ++ mark key ++ " in document root"
  | duplicate key (some path) =>
    "duplicate key " ++ mark key ++ " in table " ++ mark (Text.joinWith "." path)
  | noTable path kind =>
    "dotted key " ++ mark (Text.joinWith "." path) ++ " attempted to extend non-table type (" ++
      kind ++ ")"

def value? (key : Text) : Entries → Option Toml
  | [] => none
  | (other, value) :: entries => if other = key then some value else value? key entries

/-- The entries with this value under this key; a new key comes last. -/
def setValue (key : Text) (value : Toml) : Entries → Entries
  | [] => [(key, value)]
  | (other, old) :: entries =>
    if other = key then (key, value) :: entries else (other, old) :: setValue key value entries

def modifyLast (change : Entries → Except Clash Entries) :
    List Entries → Except Clash (List Entries)
  | [] => .ok []
  | [entries] => (change entries).map fun entries => [entries]
  | entries :: others => (modifyLast change others).map (entries :: ·)

/-- How a path leads to a table. -/
inductive Route where
  | header
  | dotted
  | braced
  deriving DecidableEq, Repr

/-- The origin of the tables that a path begins. -/
def Route.origin : Route → Origin
  | header => .implied
  | _ => .dotted

/-- Why a path cannot lead through a table under the last of these keys, if it cannot. Dotted keys
do not go on with a table that was completed before. -/
def Route.clash? (route : Route) (keys : List Text) (origin : Origin) : Option Clash :=
  match route, origin with
  | .header, .inline => some (.noTable keys "inline table")
  | .dotted, .inline => some (.noTable keys "inline table")
  | .braced, .inline => some (.duplicate (keys.getLast?.getD []) none)
  | .dotted, .defined => some (.duplicate (keys.getLast?.getD []) none)
  | _, _ => none

/-- Changes the table that a path leads to from a table of this origin, behind the keys of `trail`.
Tables that are missing on the way are begun. -/
def descend (route : Route) (change : Origin → Entries → Except Clash Entries) :
    (trail : List Text) → (origin : Origin) → (path : List Text) → Entries → Except Clash Entries
  | _, origin, [], entries => change origin entries
  | trail, _, key :: path, entries =>
    let trail := trail ++ [key]
    match value? key entries with
    | none => do
      let new ← descend route change trail route.origin path []
      return setValue key (.table route.origin new) entries
    | some (.table origin old) =>
      match route.clash? trail origin with
      | some clash => .error clash
      | none => do
        let new ← descend route change trail origin path old
        return setValue key (.table origin new) entries
    | some (.tables old) => do
      let new ← modifyLast (descend route change trail .defined path) old
      return setValue key (.tables new) entries
    | some other => .error (.noTable trail other.kindName)

/-- The entries with a new value under a key of a table of this origin. -/
def addValue (byPath : Bool) (table? : Option (List Text)) (key : Text) (value : Toml)
    (origin : Origin) (entries : Entries) : Except Clash Entries :=
  if (origin = .dotted) != byPath then .error (.duplicate key none)
  else
    match value? key entries with
    | none => .ok (entries ++ [(key, value)])
    | some _ => .error (.duplicate key table?)

/-- The entries with a new value under a path of keys. -/
def assign (route : Route) (table? : Option (List Text)) (path : List Text) (value : Toml)
    (origin : Origin) (entries : Entries) : Except Clash Entries :=
  match path.getLast? with
  | none => .ok entries
  | some key =>
    descend route (addValue (1 < path.length) table? key value) [] origin path.dropLast entries

def dropValue (key : Text) (entries : Entries) : Entries := entries.filter fun (k, _) => k ≠ key

/-- A key as it is written: without quotes if its characters allow it. -/
def keyText (key : Text) : Text :=
  if !key.isEmpty ∧ key.all isKeyCharacter then key else stringText key

/-- The entries with a table under a key, which a header begins or completes. A table that is
completed comes last. -/
def addTable (path : List Text) (key : Text) (_ : Origin) (entries : Entries) :
    Except Clash Entries :=
  match value? key entries with
  | none => .ok (setValue key (.table .defined []) entries)
  | some (.table .implied old) => .ok (setValue key (.table .defined old) (dropValue key entries))
  | some _ => .error (.duplicate (keyText key) (some path.dropLast))

def addToTables (path : List Text) (key : Text) (_ : Origin) (entries : Entries) :
    Except Clash Entries :=
  match value? key entries with
  | none => .ok (setValue key (.tables [[]]) entries)
  | some (.tables old) => .ok (setValue key (.tables (old ++ [[]])) entries)
  | some _ => .error (.duplicate (keyText key) (some path.dropLast))

inductive Statement where
  /-- A header: the table of this path follows. -/
  | header (path : List Text)
  /-- A double header: another table in the row of this path follows. -/
  | rowHeader (path : List Text)
  | assignment (path : List Text) (value : Toml)

/-- A document as far as it has been read. -/
structure Draft where
  entries : Entries
  /-- The path of the table that assignments go to. -/
  current : List Text

/-- The document before its first statement. -/
def Draft.empty : Draft := ⟨[], []⟩

/-- The document after a statement. -/
def Draft.add (draft : Draft) : Statement → Except Clash Draft
  | .header path =>
    match path.getLast? with
    | none => .ok draft
    | some key => do
      let entries ←
        descend .header (addTable path key) [] .defined path.dropLast draft.entries
      return ⟨entries, path⟩
  | .rowHeader path =>
    match path.getLast? with
    | none => .ok draft
    | some key => do
      let entries ←
        descend .header (addToTables path key) [] .defined path.dropLast draft.entries
      return ⟨entries, path⟩
  | .assignment path value => do
    let add := assign .dotted (some draft.current) path value
    let entries ← descend .header add [] .defined draft.current draft.entries
    return { draft with entries }

end Toml

end SampleHarvest
