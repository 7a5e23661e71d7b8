import SampleHarvest.Text.Decimal

/-!
# Written values

The form in which values are written: a text takes the plainest of the four ways of quoting that can
hold it, and an array of two or more values has each value on a line of its own.

A way without escapes is taken only for texts that need none. Over several lines the opening quotes
are followed by a line feed, which does not belong to the text.
-/

namespace SampleHarvest

namespace Toml

/-- Whether a character can only be written with an escape. -/
def needsCode (c : Char) : Bool :=
  (c.toNat < 0x20 && c ≠ '\t' && c ≠ '\n') || c.toNat == 0x7F

/-- The length of the longest run of a character, where `run` of them stand in front. -/
def longestRun (c : Char) : (run : Nat) → Text → Nat
  | run, [] => run
  | run, d :: t => if d = c then longestRun c (run + 1) t else max run (longestRun c 0 t)

def capitalHexDigit (n : Nat) : Char := if n < 10 then Char.ofNat (48 + n) else Char.ofNat (55 + n)

/-- The escape of a control character. -/
def codeText (c : Char) : Text :=
  ['\\', 'u', '0', '0', capitalHexDigit (c.toNat / 16), capitalHexDigit (c.toNat % 16)]

/-- The escape of a character that does not stand for itself between double quotes. -/
def escapeText? (c : Char) : Option Text :=
  if c = '\x08' then some ['\\', 'b']
  else if c = '\t' then some ['\\', 't']
  else if c = '\x0c' then some ['\\', 'f']
  else if c = '\r' then some ['\\', 'r']
  else if c = '\\' then some ['\\', '\\']
  else if c ≠ '\n' ∧ needsCode c then some (codeText c)
  else none

/-- The inside of a text on one line. -/
def basicText : Text → Text
  | [] => []
  | c :: t =>
    if c = '\x22' then '\\' :: '\x22' :: basicText t
    else if c = '\n' then '\\' :: 'n' :: basicText t
    else (escapeText? c).getD [c] ++ basicText t

/-- The inside of a text over several lines. No more than two quotes stand together, of which
`quotes` stand in front. -/
def basicLinesText : (quotes : Nat) → Text → Text
  | _, [] => []
  | quotes, c :: t =>
    if c = '\x22' then
      if quotes < 2 then '\x22' :: basicLinesText (quotes + 1) t
      else '\\' :: '\x22' :: basicLinesText 0 t
    else (escapeText? c).getD [c] ++ basicLinesText 0 t

/-- A text between quotes of three, after a line feed if it goes over several lines. -/
def betweenTriples (quote : Char) (source inside : Text) : Text :=
  let quotes := List.replicate 3 quote
  let lead : Text := if source.contains ['\n'] then ['\n'] else []
  quotes ++ lead ++ inside ++ quotes

/-- The written form of a text. -/
def stringText (t : Text) : Text :=
  let isCoded := t.any needsCode
  let isEscaped := t.any (· == '\\')
  let isLong := t.any (· == '\n')
  let doubles := longestRun '\x22' 0 t
  let singles := longestRun '\x27' 0 t
  if !isCoded && !isEscaped && !isLong && doubles == 0 then '\x22' :: (basicText t ++ ['\x22'])
  else if !isCoded && !isLong && singles == 0 then '\x27' :: (t ++ ['\x27'])
  else if !isCoded && !isEscaped && doubles ≤ 2 then
    betweenTriples '\x22' t (basicLinesText 0 t)
  else if !isCoded && singles ≤ 2 then betweenTriples '\x27' t t
  else if isLong then betweenTriples '\x22' t (basicLinesText 0 t)
  else '\x22' :: (basicText t ++ ['\x22'])

/-- The written form of an array of texts. -/
def arrayText (texts : List Text) : Text :=
  match texts with
  | [] => "[]"
  | [t] => '[' :: (stringText t ++ ['\x5d'])
  | texts =>
    '[' :: '\n' :: (texts.flatMap fun t => "    " ++ stringText t ++ [',', '\n']) ++ ['\x5d']

def line (key written : Text) : Text := key ++ " = " ++ written ++ "\n"

def headerLine (key : Text) : Text := "[" ++ key ++ "]\n"

end Toml

end SampleHarvest
