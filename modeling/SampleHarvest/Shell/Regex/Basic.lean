import SampleHarvest.Shell.CharacterSet

/-!
# Regular expressions

A regular expression fits parts of a text. Matching goes on from every place that the first part of
an expression can lead to, and keeps of two ways to one place the way on which earlier parts are
longer. Of all matches the one that begins first counts, and of these the longest.

A repetition is followed until it leads to no new place, so that it ends also where it can fit
nothing.
-/

namespace SampleHarvest

namespace Shell

/-- A place between characters. -/
inductive Anchor where
  | textStart
  | textEnd
  | wordEdge
  | noWordEdge
  | wordStart
  | wordEnd
  | behindNoWord
  | beforeNoWord
  | lineStart
  | lineEnd
  deriving DecidableEq, Repr

/-- A regular expression. -/
inductive Regex where
  | empty
  | one (set : CharacterSet)
  | place (anchor : Anchor)
  | sequence (first second : Regex)
  | either (first second : Regex)
  | repeated (inner : Regex) (least : Nat) (most? : Option Nat)
  | group (number : Nat) (inner : Regex)
  | same (number : Nat)
  deriving Repr

namespace Regex

/-- A place in a text and what has been fitted before it. -/
structure State where
  position : Nat
  before? : Option Char
  rest : Text
  groups : List (Nat × Text) := []
  deriving DecidableEq, Repr

namespace State

def next (state : State) (c : Char) (rest : Text) : State :=
  { state with position := state.position + 1, before? := some c, rest }

/-- The state behind some more characters. -/
def advance : (count : Nat) → State → State
  | 0, state => state
  | count + 1, state =>
    match state.rest with
    | [] => state
    | c :: rest => advance count (state.next c rest)

end State

def isWordCharacter (c : Char) : Bool := c.isAlphanum || c == '_'

/-- Whether a place is as an anchor says. -/
def Anchor.holds (anchor : Anchor) (state : State) : Bool :=
  let before := state.before?.any isWordCharacter
  let behind := state.rest.head?.any isWordCharacter
  match anchor with
  | .textStart => state.before?.isNone
  | .textEnd => state.rest.isEmpty
  | .wordEdge => before != behind
  | .noWordEdge => before == behind
  | .wordStart => !before && behind
  | .wordEnd => before && !behind
  | .behindNoWord => !before
  | .beforeNoWord => !behind
  | .lineStart => state.before?.all (· == '\n')
  | .lineEnd => state.rest.head?.all (· == '\n')

/-- The states without those that lead to a place that an earlier one leads to; `seen` has a bit for
each place that is left out from the start. -/
def distinct : (seen : Nat) → List State → List State
  | _, [] => []
  | seen, state :: states =>
    if seen.testBit state.position then distinct seen states
    else state :: distinct (Nat.lor seen (Nat.pow 2 state.position)) states

def furthestFirst (states : List State) : List State :=
  states.mergeSort fun a b => b.position ≤ a.position

/-- The states that a step leads to again and again, until there is no new place. -/
def closure (step : State → List State) : (rounds : Nat) → (seen : Nat) → List State → List State
  | 0, _, states => states
  | rounds + 1, seen, states =>
    let new := distinct seen (states.flatMap step)
    if new.isEmpty then states
    else
      let seen := new.foldl (fun seen state => Nat.lor seen (Nat.pow 2 state.position)) seen
      states ++ closure step rounds seen new

/-- The states that a step leads to when it is taken this many times. -/
def times (step : State → List State) : Nat → List State → List State
  | 0, states => states
  | count + 1, states => times step count (distinct 0 (furthestFirst (states.flatMap step)))

/-- The states that a step leads to when it is taken at most this many times. -/
def upTo (step : State → List State) : Nat → List State → List State
  | 0, states => states
  | count + 1, states =>
    distinct 0 (furthestFirst (upTo step count (states.flatMap step) ++ states))

/-- The states that an expression leads to, those further on first. -/
def run : Regex → State → List State
  | .empty, state => [state]
  | .one set, state =>
    match state.rest with
    | [] => []
    | c :: rest => if set.has c then [state.next c rest] else []
  | .place anchor, state => if Anchor.holds anchor state then [state] else []
  | .sequence first second, state =>
    match run first state with
    | [middle] => run second middle
    | middle => furthestFirst (distinct 0 (middle.flatMap (run second)))
  | .either first second, state =>
    distinct 0 (furthestFirst (run first state ++ run second state))
  | .repeated inner least most?, state =>
    let begun := times (run inner) least [state]
    match most? with
    | some most => upTo (run inner) (most - least) begun
    | none =>
      let seen := begun.foldl (fun seen state => Nat.lor seen (Nat.pow 2 state.position)) 0
      furthestFirst (closure (run inner) (state.rest.length + 1) seen begun)
  | .group number inner, state =>
    (run inner state).map fun after =>
      let others := after.groups.filter fun entry => entry.1 != number
      let fitted := state.rest.take (after.position - state.position)
      { after with groups := (number, fitted) :: others }
  | .same number, state =>
    match state.groups.lookup number with
    | none => []
    | some fitted =>
      if Text.startsWith state.rest fitted then [state.advance fitted.length] else []

/-- The highest number of a group. -/
def groupCount : Regex → Nat
  | .sequence first second => max first.groupCount second.groupCount
  | .either first second => max first.groupCount second.groupCount
  | .repeated inner _ _ => inner.groupCount
  | .group number inner => max number inner.groupCount
  | _ => 0

/-- Whether an expression can fit nothing. -/
def isNullable : Regex → Bool
  | .empty => true
  | .one _ => false
  | .place _ => true
  | .sequence first second => first.isNullable && second.isNullable
  | .either first second => first.isNullable || second.isNullable
  | .repeated inner least _ => least == 0 || inner.isNullable
  | .group _ inner => inner.isNullable
  | .same _ => true

def canBegin (c : Char) : Regex → Bool
  | .empty => false
  | .one set => set.has c
  | .place _ => false
  | .sequence first second => first.canBegin c || (first.isNullable && second.canBegin c)
  | .either first second => first.canBegin c || second.canBegin c
  | .repeated inner _ _ => inner.canBegin c
  | .group _ inner => inner.canBegin c
  | .same _ => true

/-- What an expression fits first in a text: the place where it begins and the one where it ends. -/
def search (regex : Regex) :
    (before? : Option Char) → (position : Nat) → Text → Option (Nat × State)
  | before?, position, rest =>
    let found? : Option State :=
      if regex.isNullable ∨ rest.head?.any (fun c => regex.canBegin c) then
        (regex.run { position, before?, rest }).head?
      else none
    match found?, rest with
    | some found, _ => some (position, found)
    | none, [] => none
    | none, c :: rest => search regex (some c) (position + 1) rest

/-- What an expression fits in a text from a place on that this character precedes. -/
structure Match where
  front : Text
  fitted : Text
  rest : Text
  groups : List (Nat × Text)
  deriving DecidableEq, Repr

/-- The first and longest match in a text that a character precedes or not. -/
def find? (regex : Regex) (before? : Option Char) (t : Text) : Option Match :=
  (regex.search before? 0 t).map fun (start, found) =>
    ⟨t.take start, (t.drop start).take (found.position - start), found.rest, found.groups⟩

/-- Whether an expression fits a part of a text. -/
def fitsIn (regex : Regex) (t : Text) : Bool := (regex.search none 0 t).isSome

/-- The matches in a text one after the other, at most this many, with the text behind the last one.
Right behind a match there is no empty one. -/
def findAll (regex : Regex) : (most : Nat) → (before? : Option Char) → (isBehind : Bool) → Text →
    List (Text × Match) × Text
  | 0, _, _, t => ([], t)
  | most + 1, before?, isBehind, t =>
    match regex.find? before? t with
    | none => ([], t)
    | some found =>
      if found.fitted.isEmpty ∧ found.front.isEmpty ∧ isBehind then
        match t with
        | [] => ([], t)
        | c :: rest =>
          match findAll regex most (some c) false rest with
          | ((front, first) :: others, behind) => ((c :: front, first) :: others, behind)
          | ([], behind) => ([], c :: behind)
      else if found.fitted.isEmpty then
        match found.rest with
        | [] => ([(found.front, found)], [])
        | c :: rest =>
          match findAll regex most (some c) false rest with
          | ((front, first) :: others, behind) =>
            ((found.front, found) :: (c :: front, first) :: others, behind)
          | ([], behind) => ([(found.front, found)], c :: behind)
      else
        let (others, behind) := findAll regex most found.fitted.getLast? true found.rest
        ((found.front, found) :: others, behind)

end Regex

end Shell

end SampleHarvest
