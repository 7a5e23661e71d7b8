/-!
# Text

A text is a list of characters, so that every rule about texts is a rule about lists. This module
holds blanks and trimming, the tests for a leading, trailing or inner part, replacement and
splitting.

A blank is a character with the Unicode property `White_Space`. Replacement goes through a text
once, from left to right, and never looks at what it has inserted.
-/

namespace SampleHarvest

/-- A sequence of Unicode characters. -/
abbrev Text := List Char

/-- A literal stands for the list of its characters. -/
instance : Coe String Text := ⟨String.toList⟩

namespace Text

/-- The characters with the Unicode property `White_Space`. -/
def isBlank (c : Char) : Bool :=
  let n := c.toNat
  (0x09 ≤ n && n ≤ 0x0D) || n == 0x20 || n == 0x85 || n == 0xA0 || n == 0x1680 ||
    (0x2000 ≤ n && n ≤ 0x200A) || n == 0x2028 || n == 0x2029 || n == 0x202F || n == 0x205F ||
    n == 0x3000

/-- Everything from the first character that is not blank. -/
def trimStart (t : Text) : Text := t.dropWhile isBlank

/-- Everything up to the last character that is not blank. -/
def trimEnd (t : Text) : Text := (t.reverse.dropWhile isBlank).reverse

/-- A text without its leading and trailing blanks. -/
def trim (t : Text) : Text := trimEnd (trimStart t)

/-- A text with its ASCII capitals made small; all other characters stay. -/
def lower (t : Text) : Text := t.map Char.toLower

def startsWith (t part : Text) : Bool := part.isPrefixOf t

def endsWith (t part : Text) : Bool := part.isSuffixOf t

/-- What follows `part` in a text that begins with it. -/
def after? : (t part : Text) → Option Text
  | t, [] => some t
  | [], _ :: _ => none
  | c :: t, p :: part => if c = p then after? t part else none

/-- What follows `part` in a text that begins with it, and the whole text otherwise. -/
def dropLead (t part : Text) : Text := (after? t part).getD t

/-- Whether `part` occurs in the text; the empty text occurs everywhere. -/
def contains : (t part : Text) → Bool
  | [], part => part.isEmpty
  | c :: t, part => startsWith (c :: t) part || contains t part

/-- Goes through a text, leaving out `skip` characters and then putting `value` for every occurrence
of `pattern`. -/
def replaceFrom (pattern value : Text) : (skip : Nat) → Text → Text
  | _, [] => []
  | skip + 1, _ :: t => replaceFrom pattern value skip t
  | 0, c :: t =>
    if startsWith (c :: t) pattern then value ++ replaceFrom pattern value (pattern.length - 1) t
    else c :: replaceFrom pattern value 0 t

/-- Puts `value` for the leftmost non-overlapping occurrences of `pattern`; an empty pattern changes
nothing. -/
def replaceAll (pattern value t : Text) : Text :=
  if pattern.isEmpty then t else replaceFrom pattern value 0 t

/-- The line feed that a text needs before something is put on the next line. -/
def lineEndFor (t : Text) : Text := if t.isEmpty || t.endsWith "\n" then [] else "\n"

/-- The parts of a text between the separators, one more than there are separators. -/
def splitOn (separator : Char) : Text → List Text
  | [] => [[]]
  | c :: t =>
    if c = separator then [] :: splitOn separator t
    else
      match splitOn separator t with
      | [] => [[c]]
      | part :: parts => (c :: part) :: parts

/-- The parts put one after the other with `separator` between each two. -/
def joinWith (separator : Text) : List Text → Text
  | [] => []
  | [part] => part
  | part :: parts => part ++ separator ++ joinWith separator parts

/-- The text before and after the last separator. -/
def splitLast? (separator : Char) : Text → Option (Text × Text)
  | [] => none
  | c :: t =>
    match splitLast? separator t with
    | some (front, back) => some (c :: front, back)
    | none => if c = separator then some ([], t) else none

/-- The text before and after the first separator. -/
def splitFirst? (separator : Char) : Text → Option (Text × Text)
  | [] => none
  | c :: t =>
    if c = separator then some ([], t)
    else (splitFirst? separator t).map fun (front, back) => (c :: front, back)

/-- Whether `a` comes before `b` or equals it when characters are compared one by one. The order of
code points is the order of the bytes that encode them. -/
def le : (a b : Text) → Bool
  | [], _ => true
  | _ :: _, [] => false
  | a :: as, b :: bs => if a = b then le as bs else a.toNat ≤ b.toNat

/-- The texts in ascending order. -/
def sort (texts : List Text) : List Text := texts.mergeSort le

/-- The texts without those that already stand further to the front. -/
def distinct (texts : List Text) : List Text :=
  texts.foldl (fun seen t => if t ∈ seen then seen else seen ++ [t]) []

/-- A text filled up with blanks on the right to at least `width` characters. -/
def padRight (width : Nat) (t : Text) : Text := t ++ List.replicate (width - t.length) ' '

end Text

end SampleHarvest
