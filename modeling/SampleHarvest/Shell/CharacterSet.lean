import SampleHarvest.Text.Raw

/-!
# Sets of characters

A set is a list of ranges, or everything that is in none of them. The classes have names: a name
stands for the ranges of the plain character set that belong to it.
-/

namespace SampleHarvest

namespace Shell

structure CharacterSet where
  isInverted : Bool := false
  ranges : List (Char × Char)
  deriving DecidableEq, Repr

namespace CharacterSet

def has (set : CharacterSet) (c : Char) : Bool :=
  set.ranges.any (fun (low, high) => low ≤ c && c ≤ high) != set.isInverted

def single (c : Char) : CharacterSet := { ranges := [(c, c)] }

def all : CharacterSet := { isInverted := true, ranges := [] }

def inverted (set : CharacterSet) : CharacterSet := { set with isInverted := !set.isInverted }

/-- A set that does not tell capitals from small letters. -/
def folded (set : CharacterSet) : CharacterSet :=
  let both := set.ranges.flatMap fun (low, high) =>
    (low, high) :: ((List.range 26).filterMap fun i =>
      let small := Char.ofNat ('a'.toNat + i)
      let capital := Char.ofNat ('A'.toNat + i)
      if low ≤ small ∧ small ≤ high then some (capital, capital)
      else if low ≤ capital ∧ capital ≤ high then some (small, small)
      else none)
  { set with ranges := both }

end CharacterSet

def classRanges? (name : Text) : Option (List (Char × Char)) :=
  if name = "alpha" then some [('A', 'Z'), ('a', 'z')]
  else if name = "digit" then some [('0', '9')]
  else if name = "alnum" then some [('0', '9'), ('A', 'Z'), ('a', 'z')]
  else if name = "upper" then some [('A', 'Z')]
  else if name = "lower" then some [('a', 'z')]
  else if name = "space" then some [('\t', '\x0d'), (' ', ' ')]
  else if name = "blank" then some [('\t', '\t'), (' ', ' ')]
  else if name = "punct" then some [('!', '/'), (':', '@'), ('[', Char.ofNat 0x60), ('\x7b', '~')]
  else if name = "print" then some [(' ', '~')]
  else if name = "graph" then some [('!', '~')]
  else if name = "cntrl" then some [('\x00', '\x1f'), ('\x7f', '\x7f')]
  else if name = "xdigit" then some [('0', '9'), ('A', 'F'), ('a', 'f')]
  else none

/-- The class at the front of a text, of which the brackets and colons have been seen or not. -/
def classAt? (t : Text) : Option (List (Char × Char) × Text) :=
  match t with
  | '[' :: ':' :: t =>
    let name := t.takeWhile Char.isAlpha
    match t.drop name.length with
    | ':' :: '\x5d' :: rest => (classRanges? name).map fun ranges => (ranges, rest)
    | _ => none
  | _ => none

end Shell

end SampleHarvest
