import SampleHarvest.Shell.Format

/-!
# Values in record programs

A value is a number or a text, and each can be used as the other. A text that was read and looks
like a number is both. A variable that has no value yet is the number zero and the empty text.

A table keeps values under texts. Its keys are gone through in the order of their hash values, and
of keys that share one the one that was looked up last comes first. A key that was a whole number
gets its place only when keys are needed as texts.
-/

namespace SampleHarvest

namespace Shell

namespace Record

inductive Value where
  | missing
  | number (x : Float)
  | text (t : Text)
  | both (t : Text) (x : Float)

/-- The largest whole number that is written with all its digits. -/
def maxWhole : Nat := 9223372036854775807

/-- The whole number that a number is cut down to. -/
def truncated (x : Float) : Int :=
  match FloatKind.of x with
  | .finite isNegative ratio =>
    let n : Nat := ratio.upper / ratio.lower
    if isNegative then -(n : Int) else n
  | .infinite isNegative => if isNegative then -(maxWhole : Int) - 1 else maxWhole
  | .notNumber => -(maxWhole : Int) - 1

/-- The whole number that a number is, if it is one that is written with all its digits. -/
def whole? (x : Float) : Option Int :=
  match FloatKind.of x with
  | .finite isNegative ratio =>
    if ratio.upper % ratio.lower = 0 ∧ ratio.upper / ratio.lower ≤ maxWhole then
      let n : Nat := ratio.upper / ratio.lower
      some (if isNegative then -(n : Int) else n)
    else none
  | _ => none

def numberText (format : Text) (x : Float) : Text :=
  match whole? x, FloatKind.of x with
  | some n, _ => Text.ofInt n
  | none, .notNumber => "-nan"
  | none, _ =>
    (formatPieces (format.length + 1) format).flatMap fun piece =>
      match piece with
      | .text t => t
      | .place flags width precision conversion written =>
        if "eEfFgG".toList.any (· == conversion) then
          let width : Nat :=
            match width with
            | .given n => n
            | _ => 0
          let precision? : Option Nat :=
            match precision with
            | .given n => some n
            | _ => none
          Specifier.showFloat { flags, width, precision?, conversion } x
        else written
      | .unfinished written => written

/-- The number at the front of a text, and what follows it; a number in the base 16 counts too. -/
def leadingNumber? (t : Text) : Option (Float × Text) :=
  let (isNegative, digits) : Bool × Text :=
    match t with
    | '-' :: t => (true, t)
    | '+' :: t => (false, t)
    | t => (false, t)
  match digits with
  | '0' :: x :: c :: rest =>
    let isHex (c : Char) : Bool := c.isDigit || ('a' ≤ c.toLower && c.toLower ≤ 'f')
    if (x = 'x' ∨ x = 'X') ∧ isHex c then
      let run := (c :: rest).takeWhile isHex
      let (n, _) := Arithmetic.leadingNumber ('0' :: 'x' :: run)
      let value := Float.ofNat n
      some (if isNegative then -value else value, (c :: rest).drop run.length)
    else leadingFloat? t
  | _ => leadingFloat? t

def textNumber (t : Text) : Float :=
  match leadingNumber? (t.dropWhile Text.isRawBlank) with
  | some (x, _) => x
  | none => 0.0

namespace Value

def ofRead (t : Text) : Value :=
  match leadingNumber? (t.dropWhile Text.isRawBlank) with
  | some (x, rest) => if rest.all Text.isRawBlank then .both t x else .text t
  | none => .text t

def toNumber : Value → Float
  | .missing => 0.0
  | .number x => x
  | .text t => textNumber t
  | .both _ x => x

def toText (format : Text) : Value → Text
  | .missing => []
  | .number x => numberText format x
  | .text t => t
  | .both t _ => t

def isTrue : Value → Bool
  | .missing => false
  | .number x => x != 0.0
  | .text t => !t.isEmpty
  | .both _ x => x != 0.0

def ofBool (b : Bool) : Value := .number (if b then 1.0 else 0.0)

/-- Whether a value is compared as a number. -/
def isNumeric : Value → Bool
  | .text _ => false
  | _ => true

def ofNat (n : Nat) : Value := .number (Float.ofNat n)

/-- The value of a whole number with a sign. -/
def ofInt (n : Int) : Value := .number (Float.ofInt n)

end Value

/-- How two values are compared: whether the first is less, and whether they are equal. -/
def compare (format : Text) (a b : Value) : Bool × Bool :=
  if a.isNumeric && b.isNumeric then (a.toNumber < b.toNumber, a.toNumber == b.toNumber)
  else
    let a := a.toText format
    let b := b.toText format
    (a != b && Text.le a b, a == b)

/-- The remainder of a division, with the sign of what is divided. -/
def remainder (x y : Float) : Float :=
  match FloatKind.of x, FloatKind.of y with
  | .finite isNegative a, .finite _ b =>
    if b.upper = 0 then 0.0 / 0.0
    else
      let upper := a.upper * b.lower % (b.upper * a.lower)
      let lower := a.lower * b.lower
      let common := Nat.gcd upper lower
      let r := Float.ofNat (upper / common) / Float.ofNat (lower / common)
      if isNegative then -r else r
  | .finite _ _, .infinite _ => x
  | _, _ => 0.0 / 0.0

structure Table where
  entries : List (Text × Value) := []
  order : List Text := []
  numbers : List Int := []
  hasTexts : Bool := false

namespace Table

def hash (t : Text) : Nat :=
  t.foldl (fun h c => Nat.xor h c.toNat * 16777619 % 4294967296) 2166136261

/-- How many places the keys of a table of a size are spread over. -/
def places (size : Nat) : Nat := if size ≤ 768 then 64 else if size ≤ 1536 then 128 else 256

/-- Some things sorted by a number, those with one number in the order in which they are. -/
def byNumber (key : α → Nat) (items : List α) : List α :=
  items.mergeSort fun a b => key a ≤ key b

def withTexts (table : Table) : Table :=
  if table.hasTexts then table
  else
    let places := places table.entries.length
    let sorted := byNumber (fun (n : Int) => (n % places).toNat) table.numbers
    { table with
      order := sorted.foldl (fun order n => Text.ofInt n :: order) table.order
      hasTexts := true }

/-- The table after a text has been looked up as a key. -/
def touchText (table : Table) (key : Text) : Table :=
  let table := table.withTexts
  { table with order := key :: table.order.filter (· != key) }

/-- The table after a whole number has been looked up as a key. -/
def touchNumber (table : Table) (n : Int) : Table :=
  let known := table.numbers.contains n
  let table := if table.hasTexts && !known then table.touchText (Text.ofInt n) else table
  { table with numbers := n :: table.numbers.filter (· != n) }

def get? (table : Table) (key : Text) : Option Value := table.entries.lookup key

def insert (table : Table) (key : Text) (value : Value) : Table :=
  if table.entries.any (·.1 == key) then
    { table with
      entries := table.entries.map fun entry => if entry.1 = key then (key, value) else entry }
  else { table with entries := (key, value) :: table.entries }

def erase (table : Table) (key : Text) : Table :=
  { table with
    entries := table.entries.filter fun entry => entry.1 != key
    order := table.order.filter (· != key)
    numbers := table.numbers.filter fun n => Text.ofInt n != key }

def keys (table : Table) : List Text :=
  let table := table.withTexts
  byNumber (fun key => hash key % places table.entries.length) table.order

/-- The table of some texts under the whole numbers from one on. -/
def ofTexts (texts : List Text) : Table :=
  let numbered := texts.zipIdx 1
  { entries := numbered.map fun (t, i) => (Text.ofNat i, Value.ofRead t)
    numbers := (numbered.map fun (_, i) => (i : Int)).reverse }

end Table

end Record

end Shell

end SampleHarvest
