import SampleHarvest.Text.Decimal

/-!
# Readers

A reader takes a value from the front of a text and hands on the rest, or tells what is wrong and
where. A fault is final if nothing else could be read in that place.

A fault names the kind of thing that was begun, what could have come next, and a reason of its own.
The innermost kind counts.
-/

namespace SampleHarvest

namespace Toml

/-- A step from a value to one inside it. -/
inductive Step where
  | key (name : Text)
  | index (position : Nat)
  deriving DecidableEq, Repr

/-- Where a fault is. -/
inductive Place where
  | before (rest : Text)
  | value (path : List Step)
  | key (path : List Step)
  deriving DecidableEq, Repr

/-- What is wrong with a document, and where. -/
structure Fault where
  place : Place
  kind? : Option Text := none
  expected : List Text := []
  cause? : Option Text := none
  /-- Whether nothing else can be read in its place. -/
  isFinal : Bool := false
  deriving DecidableEq, Repr

/-- A reader takes a value from the front of a text. -/
abbrev Reader (α : Type) := Text → Except Fault (α × Text)

namespace Fault

/-- The fault of something that does not go on here. -/
def here (rest : Text) : Fault := { place := .before rest }

/-- The fault of something that does not go on here for this reason. -/
def because (rest : Text) (cause : Text) : Fault := { place := .before rest, cause? := some cause }

/-- The fault of a thing of this kind that cannot be anything else. -/
def invalid (rest : Text) (kind : Text) : Fault :=
  { place := .before rest, kind? := some kind, isFinal := true }

def inside (fault : Fault) (kind : Text) : Fault :=
  { fault with kind? := fault.kind? <|> some kind }

/-- A fault in whose place these could have come too. -/
def expecting (fault : Fault) (expected : List Text) : Fault :=
  { fault with expected := fault.expected ++ expected }

/-- A fault that nothing can be read in place of. -/
def final (fault : Fault) : Fault := { fault with isFinal := true }

/-- What is said about a fault. -/
def message (fault : Fault) : Text :=
  let kind : List Text :=
    match fault.kind? with
    | some kind => ["invalid " ++ kind]
    | none => []
  let expected : List Text :=
    if fault.expected.isEmpty then [] else ["expected " ++ Text.joinWith ", " fault.expected]
  Text.joinWith ['\n'] (kind ++ expected ++ fault.cause?.toList)

end Fault

/-- Reads what nothing else can be read in place of. -/
def final (read : Reader α) : Reader α := fun t => (read t).mapError Fault.final

def inside (kind : Text) (read : Reader α) : Reader α := fun t =>
  (read t).mapError fun fault => fault.inside kind

/-- Reads something in whose place these could have come too. -/
def expecting (expected : List Text) (read : Reader α) : Reader α := fun t =>
  (read t).mapError fun fault => fault.expecting expected

/-- Reads with the second reader where the first one has no final fault. -/
def orElse (first second : Reader α) : Reader α := fun t =>
  match first t with
  | .ok result => .ok result
  | .error fault => if fault.isFinal then .error fault else second t

/-- Reads something that may be missing. -/
def optional (read : Reader α) : Reader (Option α) := fun t =>
  match read t with
  | .ok (value, rest) => .ok (some value, rest)
  | .error fault => if fault.isFinal then .error fault else .ok (none, t)

def one (isOne : Char → Bool) : Reader Char := fun t =>
  match t with
  | c :: rest => if isOne c then .ok (c, rest) else .error (.here t)
  | [] => .error (.here t)

/-- Reads a text that must stand here. -/
def exactly (wanted : Text) : Reader Unit := fun t =>
  match t.after? wanted with
  | some rest => .ok ((), rest)
  | none => .error (.here t)

/-- A part of a document as it is shown in a message. -/
def mark (t : Text) : Text := Char.ofNat 0x60 :: (t ++ [Char.ofNat 0x60])

/-- Whether a character may stand in a key without quotes. -/
def isKeyCharacter (c : Char) : Bool := c.isAlphanum || c == '-' || c == '_'

end Toml

end SampleHarvest
