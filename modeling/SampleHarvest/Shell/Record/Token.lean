import SampleHarvest.Shell.Record.Value
import SampleHarvest.Shell.Regex.Parse

/-!
# Words of record programs

A program is split into words before it is read. A slash begins a pattern unless a value stands
before it, which it divides then.
-/

namespace SampleHarvest

namespace Shell

namespace Record

/-- A word of a program. -/
inductive Token where
  | number (x : Float) (written : Text)
  | text (t : Text)
  | pattern (source : Text)
  | name (name : Text)
  | call (name : Text)
  | builtin (name : Text)
  | word (name : Text)
  | sign (sign : Text)
  | lineEnd

def words : List Text :=
  ["BEGIN", "END", "function", "if", "else", "while", "do", "for", "in", "break", "continue",
    "next", "nextfile", "exit", "return", "delete", "print", "printf", "getline"]

/-- The functions that every program has, with the least and the largest number of arguments. -/
def builtins : List (Text × Nat × Nat) :=
  [("length", 0, 1), ("substr", 2, 3), ("index", 2, 2), ("split", 2, 3), ("sub", 2, 3),
    ("gsub", 2, 3), ("match", 2, 2), ("sprintf", 1, 1000), ("toupper", 1, 1), ("tolower", 1, 1),
    ("int", 1, 1), ("sqrt", 1, 1), ("exp", 1, 1), ("log", 1, 1), ("sin", 1, 1), ("cos", 1, 1),
    ("atan2", 2, 2), ("rand", 0, 0), ("srand", 0, 1), ("system", 1, 1), ("close", 1, 1),
    ("fflush", 0, 1)]

/-- The signs of two or three characters. -/
def longSigns : List Text :=
  ["++", "--", "+=", "-=", "*=", "/=", "%=", "^=", "==", "<=", ">=", "!=", "!~", "&&", "||", ">>"]

def shortSigns : Text := "+-*/%^!<>|?:~$=,;(){}[]"

/-- Whether a value can end with a word, so that a slash behind it divides. -/
def Token.endsValue : Token → Bool
  | .number _ _ | .text _ | .pattern _ | .name _ | .builtin _ => true
  | .sign t => t = ")" || t = "]" || t = "$" || t = "++" || t = "--"
  | _ => false

/-- How a word is named in a complaint. -/
def Token.display : Token → Text
  | .number _ written => written
  | .text t => '\x22' :: (t ++ ['\x22'])
  | .pattern source => '/' :: (source ++ ['/'])
  | .name t | .call t | .builtin t | .word t | .sign t => t
  | .lineEnd => "end of line"

def complaint (line : Nat) (message : Text) : Text := "line " ++ Text.ofNat line ++ ": " ++ message

/-- The characters that a backslash and what follows it stand for, and how many follow it. -/
def escapedText : Text → Text × Nat
  | [] => (['\\'], 0)
  | c :: t =>
    let isHex (c : Char) : Bool := c.isDigit || ('a' ≤ c.toLower && c.toLower ≤ 'f')
    match c with
    | '\n' => ([], 1)
    | '\x22' => (['\x22'], 1)
    | '\\' => (['\\'], 1)
    | 'n' => (['\n'], 1)
    | 't' => (['\t'], 1)
    | 'r' => (['\x0d'], 1)
    | 'a' => (['\x07'], 1)
    | 'b' => (['\x08'], 1)
    | 'f' => (['\x0c'], 1)
    | 'v' => (['\x0b'], 1)
    | 'x' =>
      let run := (t.take 2).takeWhile isHex
      if run.isEmpty then (['\\', 'x'], 1)
      else
        let (n, _) := Arithmetic.leadingNumber ('0' :: 'x' :: run)
        ([Char.ofNat (n % 256)], run.length + 1)
    | c =>
      match octal? 3 (c :: t) with
      | some (value, rest) => ([value], t.length + 1 - rest.length)
      | none => (['\\', c], 1)

/-- A text in which characters have replaced what stands for them; `skip` characters are passed
over. -/
def unescaped : (skip : Nat) → Text → Text
  | _, [] => []
  | skip + 1, _ :: t => unescaped skip t
  | 0, '\\' :: t =>
    let (found, length) := escapedText t
    found ++ unescaped length t
  | 0, c :: t => c :: unescaped 0 t

/-- The text of a constant up to its closing quote, with how many characters it takes. -/
def constant? : (passed : Nat) → Text → Option (Text × Nat)
  | _, [] => none
  | passed, '\x22' :: _ => some ([], passed + 1)
  | _, '\n' :: _ => none
  | passed, '\\' :: c :: t => (constant? (passed + 2) t).map fun (t, n) => ('\\' :: c :: t, n)
  | passed, c :: t => (constant? (passed + 1) t).map fun (t, n) => (c :: t, n)

/-- The source of a pattern up to its closing slash, with how many characters it takes. A slash
between brackets does not count. -/
def pattern? : (isInSet : Bool) → (passed : Nat) → Text → Option (Text × Nat)
  | _, _, [] => none
  | _, _, '\n' :: _ => none
  | isInSet, passed, '\\' :: c :: t =>
    (pattern? isInSet (passed + 2) t).map fun (t, n) =>
      (if c = '/' then c :: t else '\\' :: c :: t, n)
  | isInSet, passed, c :: t =>
    if c = '/' ∧ !isInSet then some ([], passed + 1)
    else
      let isInSet := if c = '[' then true else if c = '\x5d' then false else isInSet
      (pattern? isInSet (passed + 1) t).map fun (t, n) => (c :: t, n)

/-- A pattern in which backslashes mean what they mean in programs. -/
def patternText : (skip : Nat) → Text → Text
  | _, [] => []
  | skip + 1, _ :: t => patternText skip t
  | 0, '\\' :: c :: t =>
    if c.isAlphanum ∨ c = '\x22' then
      match escapedText (c :: t) with
      | (['\\', c], length) => c :: patternText (length - 1) t
      | (found, length) =>
        let special := found.any fun d => "\\^$.[]|()*+?{}".toList.any (· == d)
        (if special then '\\' :: found else found) ++ patternText (length - 1) t
    else if c.isWhitespace ∨ "<>'\x60".toList.any (· == c) then c :: patternText 0 t
    else '\\' :: c :: patternText 0 t
  | 0, c :: t => c :: patternText 0 t

/-- The expression that a pattern is, or why it is none. -/
def regexOf (source : Text) : Except Text Regex :=
  let style : Regex.Style := { isExtended := true, escapesInSets := true, isStrict := true }
  let t := patternText 0 source
  let failed (reason : Text) : Except Text Regex :=
    .error ("regular expression compile failed (" ++ reason ++ ")\n" ++ source)
  match Regex.parse style t with
  | .ok regex => .ok regex
  | .error reason =>
    if reason = Regex.nothingToRepeat then failed "missing operand"
    else if Text.startsWith reason "Unmatched (" then failed "missing ')'"
    else if Text.startsWith reason "Unmatched )" then
      match Regex.parse { style with isStrict := false } t with
      | .ok regex => .ok regex
      | .error _ => failed "syntax error ^* or ^+"
    else if Text.startsWith reason "Unmatched [" then failed "bad class -- [], [^] or ["
    else failed reason

def nameToken (name rest : Text) : Token :=
  if words.contains name then .word name
  else if (builtins.lookup name).isSome then .builtin name
  else if rest.head? == some '(' then .call name
  else .name name

/-- The words of a program with their lines, of which at most this many are read. -/
def scan : (most line : Nat) → (isBehindValue : Bool) → Text → Except Text (List (Token × Nat))
  | 0, _, _, _ => .ok []
  | _, _, _, [] => .ok []
  | most + 1, line, isBehindValue, c :: t => do
    let go (token : Token) (length : Nat) : Except Text (List (Token × Nat)) := do
      return (token, line) :: (← scan most line token.endsValue ((c :: t).drop length))
    if c = '\n' then return (.lineEnd, line) :: (← scan most (line + 1) false t)
    if c = ' ' ∨ c = '\t' ∨ c = '\x0d' then return ← scan most line isBehindValue t
    if c = '#' then return ← scan most line isBehindValue (t.dropWhile (· ≠ '\n'))
    if c = '\\' ∧ t.head? = some '\n' then return ← scan most (line + 1) isBehindValue (t.drop 1)
    if c = '\x22' then
      match constant? 0 t with
      | some (source, length) => return ← go (.text (unescaped 0 source)) (length + 1)
      | none =>
        let front := t.take 10
        throw (complaint line ("runaway string constant \"" ++ front ++ " ..."))
    if c = '/' ∧ !isBehindValue then
      match pattern? false 0 t with
      | some (source, length) => return ← go (.pattern source) (length + 1)
      | none =>
        let front := t.take 10
        throw (complaint line ("runaway regular expression /" ++ front ++ " ..."))
    if c.isDigit ∨ (c = '.' ∧ t.head?.any Char.isDigit) then
      match leadingFloat? (c :: t) with
      | some (x, rest) =>
        let length := t.length + 1 - rest.length
        return ← go (.number x ((c :: t).take length)) length
      | none => pure ()
    if c.isAlpha ∨ c = '_' then
      let name := (c :: t).takeWhile fun c => c.isAlphanum || c == '_'
      return ← go (nameToken name ((c :: t).drop name.length)) name.length
    match longSigns.find? fun sign => Text.startsWith (c :: t) sign with
    | some sign => go (.sign sign) sign.length
    | none =>
      if shortSigns.any (· == c) then go (.sign [c]) 1
      else throw (Text.ofNat line ++ ": unexpected character '" ++ [c, '\x27'])

end Record

end Shell

end SampleHarvest
