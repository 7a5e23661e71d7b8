import SampleHarvest.Shell.CharacterSet
import SampleHarvest.Shell.Format
import SampleHarvest.Shell.Utility.Basic

/-!
# Characters for characters

Characters are replaced, left out or squeezed. Sets are written as rows of characters with ranges,
classes and repetitions; the place of a character in the first row says which one of the second row
replaces it.
-/

namespace SampleHarvest

namespace Shell

namespace Utility

inductive RowPiece where
  | single (c : Char)
  | range (low high : Char)
  | named (name : Text)
  | repeated (c : Char) (count? : Option Nat)
  deriving DecidableEq, Repr

/-- A character at the front of a row, with its escape, and the rest. -/
def rowCharacter : Text → Option (Char × Text)
  | [] => none
  | ['\\'] => some ('\\', [])
  | '\\' :: c :: t =>
    match octal? 3 (c :: t), escaped? c with
    | some (value, rest), _ => some (value, rest)
    | none, some value => if c = 'e' then some ('e', t) else some (value, t)
    | none, none => some (c, t)
  | c :: t => some (c, t)

/-- The pieces of a row, of which at most this many characters are left. -/
def rowPieces : (most : Nat) → Text → Except Text (List RowPiece)
  | 0, _ => .ok []
  | _, [] => .ok []
  | most + 1, t => do
    let named? : Option (Text × Text) :=
      match t with
      | '[' :: ':' :: rest =>
        let name := rest.takeWhile fun c => c != ':' && c != '\x5d'
        match rest.drop name.length with
        | ':' :: '\x5d' :: rest => some (name, rest)
        | _ => none
      | _ => none
    match named? with
    | some (name, rest) =>
      if (classRanges? name).isNone then throw ("invalid character class " ++ quotedText name)
      return .named name :: (← rowPieces most rest)
    | none =>
      match t with
      | '[' :: '=' :: c :: '=' :: '\x5d' :: rest => return .single c :: (← rowPieces most rest)
      | _ =>
        let repeated? : Option (RowPiece × Text) :=
          match t with
          | '[' :: rest =>
            match rowCharacter rest with
            | some (c, '*' :: rest) =>
              let digits := rest.takeWhile Char.isDigit
              match rest.drop digits.length with
              | '\x5d' :: rest =>
                let count :=
                  if digits.head? = some '0' then
                    digits.foldl (fun n c => 8 * n + Text.digitValue c) 0
                  else Text.digitsValue 0 digits
                some (.repeated c (if count = 0 then none else some count), rest)
              | _ => none
            | _ => none
          | _ => none
        match repeated? with
        | some (piece, rest) => return piece :: (← rowPieces most rest)
        | none =>
          match rowCharacter t with
          | none => return []
          | some (c, rest) =>
            match rest with
            | '-' :: behind =>
              match rowCharacter behind with
              | some (high, rest) =>
                if high < c then
                  throw ("range-endpoints of " ++ quotedText [c, '-', high] ++
                    " are in reverse collating sequence order")
                return .range c high :: (← rowPieces most rest)
              | none => return .single c :: (← rowPieces most rest)
            | rest => return .single c :: (← rowPieces most rest)
where
  quotedText (t : Text) : Text := quoted t

def charactersFrom (low high : Char) : Text :=
  (List.range (high.toNat + 1 - low.toNat)).map fun i => Char.ofNat (low.toNat + i)

/-- The characters of a piece; a repetition without a number fills what is left. -/
def RowPiece.characters (left : Nat) : RowPiece → Text
  | single c => [c]
  | range low high => charactersFrom low high
  | named name => ((classRanges? name).getD []).flatMap fun (low, high) => charactersFrom low high
  | repeated c count? => List.replicate (count?.getD left) c

def rowCharacters (wanted : Nat) (pieces : List RowPiece) : Text :=
  let fixed := (pieces.flatMap (RowPiece.characters 0)).length
  pieces.flatMap (RowPiece.characters (wanted - fixed))

/-- A text in which runs of a character that is in a set are one character. -/
def squeeze (isIn : Char → Bool) : Text → Text
  | [] => []
  | [c] => [c]
  | a :: b :: t => if a = b ∧ isIn a then squeeze isIn (b :: t) else a :: squeeze isIn (b :: t)

def otherCharacters (row : Text) : Text :=
  (charactersFrom '\x00' (Char.ofNat 255)).filter fun c => !row.any (· == c)

def changesCase (first second : List RowPiece) : Option (Char → Char) :=
  if first = [.named "lower"] ∧ second = [.named "upper"] then some Char.toUpper
  else if first = [.named "upper"] ∧ second = [.named "lower"] then some Char.toLower
  else none

/-- What a character becomes when one row replaces another. -/
def replacement (first second : Text) (c : Char) : Char :=
  let pairs := (first.zip second).reverse
  match pairs.lookup c with
  | some found => found
  | none => if first.any (· == c) then second.getLast?.getD c else c

/-- Replaces, leaves out or squeezes characters. -/
def tr : Utility := fun _ words =>
  withOptions
    { flags := "cCdst", endsAtOperand := true
      names := [⟨"complement", 'c', false⟩, ⟨"delete", 'd', false⟩,
        ⟨"squeeze-repeats", 's', false⟩, ⟨"truncate-set1", 't', false⟩] }
    words fun given => do
      let isInverted := given.has 'c' || given.has 'C'
      let deletes := given.has 'd'
      let squeezes := given.has 's'
      let needed := if deletes = squeezes then 2 else 1
      let allowed := if deletes ∧ !squeezes then 1 else 2
      let misused (first : Text) (second? : Option Text) : Act Nat := do
        say first
        match second? with
        | some second => complain second
        | none => pure ()
        complain ("Try '" ++ (← getProcess).name ++ " --help' for more information.")
        return 1
      match given.operands with
      | [] => misused "missing operand" none
      | first :: others =>
        if others.length + 1 < needed then
          misused ("missing operand after " ++ quoted first)
            (some (if squeezes then
                "Two strings must be given when both deleting and squeezing repeats."
              else "Two strings must be given when translating."))
        else if allowed < others.length + 1 then
          misused ("extra operand " ++ quoted (others[allowed - 1]?.getD []))
            (if allowed = 1 ∧ others.length = 1 then
              some "Only one string may be given when deleting without squeezing repeats."
            else none)
        else
          let second := others.headD []
          match rowPieces (first.length + 1) first, rowPieces (second.length + 1) second with
          | .error message, _ => abort message
          | _, .error message => abort message
          | .ok firstPieces, .ok secondPieces =>
            let row := rowCharacters 0 firstPieces
            let row := if isInverted then otherCharacters row else row
            let isIn (c : Char) : Bool := row.any (· == c)
            let t ← readFrom 0
            if deletes then
              let kept := t.filter fun c => !isIn c
              let set := rowCharacters 0 secondPieces
              put (if squeezes then squeeze (fun c => set.any (· == c)) kept else kept)
              return 0
            else if others.isEmpty then
              put (squeeze isIn t)
              return 0
            else
              let target := rowCharacters row.length secondPieces
              if target.isEmpty ∧ !given.has 't' then
                abort "when not truncating set1, string2 must be non-empty"
              else
                let row := if given.has 't' then row.take target.length else row
                let change (c : Char) : Char :=
                  match if isInverted then none else changesCase firstPieces secondPieces with
                  | some change => change c
                  | none => replacement row target c
                let table := (charactersFrom '\x00' (Char.ofNat 255)).map change |>.toArray
                let shown := t.map fun c => table[c.toNat]?.getD c
                put (if squeezes then squeeze (fun c => target.any (· == c)) shown else shown)
                return 0

end Utility

end Shell

end SampleHarvest
