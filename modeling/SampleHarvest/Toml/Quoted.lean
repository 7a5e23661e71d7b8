import SampleHarvest.Toml.Reader

/-!
# Quoted texts

A text is quoted in one of four ways: on one line or over several, with escapes or without. Over
several lines a line feed right after the opening quotes is dropped, one or two quotes may stand
alone inside, and a backslash at the end of a line joins it to the next one.

Each reader begins after the opening quotes and hands on what follows the closing ones.
-/

namespace SampleHarvest

namespace Toml

/-- A blank or a tab. -/
def isSpace (c : Char) : Bool := c == ' ' || c == '\t'

/-- Whether a character may stand for itself in a comment or in a text on one line. -/
def isPrintable (c : Char) : Bool := c == '\t' || (0x20 ≤ c.toNat && c.toNat ≠ 0x7F)

def afterLineEnd? : Text → Option Text
  | '\n' :: t => some t
  | '\r' :: '\n' :: t => some t
  | _ => none

def hexValue? (c : Char) : Option Nat :=
  if c.isDigit then some (c.toNat - 48)
  else if 'a' ≤ c ∧ c ≤ 'f' then some (c.toNat - 87)
  else if 'A' ≤ c ∧ c ≤ 'F' then some (c.toNat - 55)
  else none

def hexNumber? (digits : List Char) : Option Nat :=
  digits.foldl (fun n? c => do return 16 * (← n?) + (← hexValue? c)) (some 0)

/-- The character with the number that hexadecimal digits stand for. -/
def scalar? (digits : List Char) : Option Char := do
  let n ← hexNumber? digits
  if n.isValidChar then some (Char.ofNat n) else none

/-- The character that a letter after a backslash stands for. -/
def escaped? (c : Char) : Option Char :=
  match c with
  | 'b' => some '\x08'
  | 't' => some '\t'
  | 'n' => some '\n'
  | 'f' => some '\x0c'
  | 'r' => some '\r'
  | '\x22' => some '\x22'
  | '\\' => some '\\'
  | _ => none

/-- Puts a character before the text that a reader gives. -/
def push (c : Char) (result : Except Fault (Text × Text)) : Except Fault (Text × Text) :=
  result.map fun (text, rest) => (c :: text, rest)

/-- The fault of digits after a backslash and a letter that are too few, or to which no character
belongs. -/
def badCode (length : Nat) (rest : Text) : Fault :=
  let fault := Fault.invalid rest ("unicode " ++ Text.ofNat length ++ "-digit hex code")
  if ((rest.take length).takeWhile fun c => (hexValue? c).isSome).length = length then
    { fault with cause? := some "value is out of range" }
  else fault

/-- The fault of a backslash before a character that it does not stand before. -/
def badEscape (c : Char) (rest : Text) : Fault :=
  if c = 'u' then badCode 4 rest
  else if c = 'U' then badCode 8 rest
  else
    (Fault.invalid (if c.toNat < 0x80 then rest else c :: rest) "escape sequence").expecting
      (['b', 'f', 'n', 'r', 't', 'u', 'U', '\\', '\x22'].map fun c => mark [c])

/-- Reads up to a single quote. -/
def literal : Reader Text
  | [] => .error (.invalid [] "literal string")
  | c :: t =>
    if c = '\x27' then .ok ([], t)
    else if isPrintable c then push c (literal t)
    else .error (.invalid (c :: t) "literal string")

/-- Reads up to a double quote, with escapes. -/
def basic : Reader Text
  | '\\' :: 'u' :: a :: b :: c :: d :: t =>
    match scalar? [a, b, c, d] with
    | some x => push x (basic t)
    | none => .error (badCode 4 (a :: b :: c :: d :: t))
  | '\\' :: 'U' :: a :: b :: c :: d :: e :: f :: g :: h :: t =>
    match scalar? [a, b, c, d, e, f, g, h] with
    | some x => push x (basic t)
    | none => .error (badCode 8 (a :: b :: c :: d :: e :: f :: g :: h :: t))
  | '\\' :: c :: t =>
    match escaped? c with
    | some x => push x (basic t)
    | none => .error (badEscape c t)
  | c :: t =>
    if c = '\x22' then .ok ([], t)
    else if c ≠ '\\' ∧ isPrintable c then push c (basic t)
    else .error (.invalid (c :: t) "basic string")
  | [] => .error (.invalid [] "basic string")

/-- Whether what follows one or two quotes can stand inside them. -/
def goesOn (t : Text) : Bool :=
  match t.dropWhile (· = '\x27') with
  | [] => false
  | c :: rest => c == '\n' || isPrintable c || (c == '\r' && rest.head? == some '\n')

/-- Reads up to three single quotes. -/
def literalLines : Reader Text
  | '\x27' :: '\x27' :: '\x27' :: '\x27' :: '\x27' :: t => .ok (['\x27', '\x27'], t)
  | '\x27' :: '\x27' :: '\x27' :: '\x27' :: t => .ok (['\x27'], t)
  | '\x27' :: '\x27' :: '\x27' :: t => .ok ([], t)
  | '\r' :: '\n' :: t => push '\n' (literalLines t)
  | c :: t =>
    if (c = '\n' ∨ isPrintable c) ∧ (c ≠ '\x27' ∨ goesOn t) then push c (literalLines t)
    else .error (.invalid (c :: t) "multiline literal string")
  | [] => .error (.invalid [] "multiline literal string")

/-- Whether nothing but blanks stands before the next line end. -/
def endsLine (t : Text) : Bool := (afterLineEnd? (t.dropWhile isSpace)).isSome

/-- Reads up to three double quotes, with escapes. While it is `joining`, it drops blanks and line
ends. -/
def basicLines : (joining : Bool) → Reader Text
  | _, '\x22' :: '\x22' :: '\x22' :: '\x22' :: '\x22' :: t => .ok (['\x22', '\x22'], t)
  | _, '\x22' :: '\x22' :: '\x22' :: '\x22' :: t => .ok (['\x22'], t)
  | _, '\x22' :: '\x22' :: '\x22' :: t => .ok ([], t)
  | _, ['\x22', '\x22'] => .error (.invalid ['\x22', '\x22'] "multiline basic string")
  | _, ['\x22'] => .error (.invalid ['\x22'] "multiline basic string")
  | joining, '\r' :: '\n' :: t =>
    if joining then basicLines true t else push '\n' (basicLines false t)
  | _, '\\' :: 'u' :: a :: b :: c :: d :: t =>
    match scalar? [a, b, c, d] with
    | some x => push x (basicLines false t)
    | none => .error (badCode 4 (a :: b :: c :: d :: t))
  | _, '\\' :: 'U' :: a :: b :: c :: d :: e :: f :: g :: h :: t =>
    match scalar? [a, b, c, d, e, f, g, h] with
    | some x => push x (basicLines false t)
    | none => .error (badCode 8 (a :: b :: c :: d :: e :: f :: g :: h :: t))
  | _, '\\' :: c :: t =>
    if endsLine (c :: t) then basicLines true (c :: t)
    else
      match escaped? c with
      | some x => push x (basicLines false t)
      | none => .error (badEscape c t)
  | joining, c :: t =>
    if joining ∧ (isSpace c ∨ c = '\n') then basicLines true t
    else if c = '\n' ∨ (c ≠ '\\' ∧ isPrintable c) then push c (basicLines false t)
    else .error (.invalid (c :: t) "multiline basic string")
  | _, [] => .error (.invalid [] "multiline basic string")

/-- Leaves out a line end at the front. -/
def dropLineEnd (t : Text) : Text := (afterLineEnd? t).getD t

/-- Reads a text in any of the four forms. -/
def quoted : Reader Text
  | '\x22' :: '\x22' :: '\x22' :: t => basicLines false (dropLineEnd t)
  | '\x22' :: t => basic t
  | '\x27' :: '\x27' :: '\x27' :: t => literalLines (dropLineEnd t)
  | '\x27' :: t => literal t
  | t => .error (.here t)

end Toml

end SampleHarvest
