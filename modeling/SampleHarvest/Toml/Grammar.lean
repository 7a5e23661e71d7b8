import SampleHarvest.Toml.Scalar

/-!
# Documents

A document is a sequence of lines: headers, assignments, comments and blank lines. Arrays may go
over several lines, tables between braces may not, and neither is nested too deep.

Reading gives the entries of the document or the first fault with its place.
-/

namespace SampleHarvest

namespace Toml

/-- How deep arrays and tables between braces can be nested, and how long a path of keys can be. -/
def maxDepth : Nat := 79

/-- Leaves out blanks at the front. -/
def skipSpace (t : Text) : Text := t.dropWhile isSpace

/-- The fault of what is nested too deep or has too many keys. -/
def tooDeep (t : Text) : Fault := .because t "recursion limit exceeded"

def key : Reader Text := fun t =>
  match t with
  | '\x22' :: t => basic t
  | '\x27' :: t => literal t
  | t =>
    let name := t.takeWhile isKeyCharacter
    if name.isEmpty then .error (.here t) else .ok (name, t.drop name.length)

/-- Reads keys with points between them and the blanks around them, at most this many. A point that
no key follows is left. -/
def keys : (most : Nat) → Reader (List Text)
  | 0, t => .error (.here t)
  | most + 1, t => do
    let (first, t) ← key (skipSpace t)
    match skipSpace t with
    | '.' :: rest =>
      match keys most rest with
      | .ok (others, t) => return (first :: others, t)
      | .error fault => if fault.isFinal then throw fault else return ([first], '.' :: rest)
    | t => return ([first], t)

def keyPath : Reader (List Text) := fun t => do
  let (path, rest) ← inside "key" (keys (t.length + 1)) t
  if maxDepth < path.length then throw (tooDeep t)
  return (path, rest)

/-- Reads the sign between a key and its value, and the blanks behind it. -/
def equals : Reader Unit := fun t => do
  let (_, t) ← expecting [mark ['.'], mark ['=']] (final (exactly ['='])) t
  return ((), skipSpace t)

/-- Leaves out blanks, line ends and comments at the front. -/
def skipLines : (inComment : Bool) → Text → Text
  | _, [] => []
  | _, '\r' :: '\n' :: t => skipLines false t
  | inComment, c :: t =>
    if c = '\n' then skipLines false t
    else if inComment then (if isPrintable c then skipLines true t else c :: t)
    else if isSpace c then skipLines false t
    else if c = '#' then skipLines true t
    else c :: t

/-- Reads the elements of an array as far as they go and what may stand around them, at most this
many. -/
def elements (element : Reader Toml) : (most : Nat) → Reader (List Toml)
  | 0, t => .ok ([], t)
  | most + 1, t => do
    let t := skipLines false t
    match ← optional element t with
    | (none, _) => return ([], t)
    | (some first, rest) =>
      match skipLines false rest with
      | ',' :: rest =>
        let (others, rest) ← elements element most rest
        return (first :: others, rest)
      | rest => return ([first], rest)

/-- Reads an array after its opening bracket. -/
def arrayValue (element : Reader Toml) : Reader Toml := fun t => do
  let (elements, t) ← elements element (t.length + 1) t
  let (_, t) ← expecting [mark ['\x5d']] (inside "array" (final (exactly ['\x5d']))) t
  return (.array elements, t)

/-- Reads a path of keys and its value between braces. -/
def inlinePair (element : Reader Toml) : Reader (List Text × Toml) := fun t => do
  let (path, t) ← keyPath t
  let (_, t) ← equals t
  let (value, t) ← final element t
  return ((path, value), skipSpace t)

/-- Reads what stands between braces as far as it goes, at most this many pairs. A comma that no
pair follows is left. -/
def inlinePairs (element : Reader Toml) : (most : Nat) → Reader (List (List Text × Toml))
  | 0, t => .ok ([], t)
  | most + 1, t => do
    match ← optional (inlinePair element) t with
    | (none, _) => return ([], t)
    | (some first, ',' :: rest) =>
      match ← inlinePairs element most rest with
      | ([], _) => return ([first], ',' :: rest)
      | (others, rest) => return (first :: others, rest)
    | (some first, rest) => return ([first], rest)

/-- The entries of a table with these pairs between its braces. -/
def inlineEntries (pairs : List (List Text × Toml)) : Except Clash Entries :=
  pairs.foldlM (fun entries (path, value) => assign .braced none path value .inline entries) []

/-- What a statement that begins here gives, where a clash is a fault. -/
def clashFault (start : Text) (result : Except Clash α) : Except Fault α :=
  result.mapError fun clash => (Fault.because start clash.message).final

/-- Reads a table after its opening brace. -/
def inlineTable (element : Reader Toml) : Reader Toml := fun start => do
  let (pairs, t) ← inlinePairs element (start.length + 1) start
  let entries ← clashFault start (inlineEntries pairs)
  let (_, t) ←
    expecting [mark ['\x7d']] (inside "inline table" (final (exactly ['\x7d']))) (skipSpace t)
  return (.table .inline entries, t)

/-- Reads a value in which arrays and tables are nested at most this deep. -/
def value : (depth : Nat) → Reader Toml
  | depth, t =>
    match t with
    | '[' :: rest =>
      match depth with
      | 0 => .error (tooDeep t).final
      | depth + 1 => arrayValue (value depth) rest
    | '\x7b' :: rest =>
      match depth with
      | 0 => .error (tooDeep t).final
      | depth + 1 => inlineTable (value depth) rest
    | '\x22' :: _ => do
      let (text, t) ← quoted t
      return (.string text, t)
    | '\x27' :: _ => do
      let (text, t) ← quoted t
      return (.string text, t)
    | t => plain t

/-- Leaves out a comment at the front. -/
def skipComment (t : Text) : Text :=
  match t with
  | '#' :: rest => rest.dropWhile isPrintable
  | t => t

def lineBreak : Reader Unit := fun t =>
  match afterLineEnd? t with
  | some rest => .ok ((), rest)
  | none => if t.isEmpty then .ok ((), []) else .error (.here t)

/-- Reads to the end of a line, where only a comment may stand. -/
def lineEnd : Reader Unit := fun t =>
  expecting ["newline", mark ['#']] lineBreak (skipComment (skipSpace t))

/-- Reads a header after its opening brackets. -/
def header (kind : List Text → Statement) (closing : Text) : Reader Statement :=
  inside "table header" fun t => do
    let (path, t) ← keyPath t
    let (_, t) ← expecting [mark ['.'], mark closing] (exactly closing) t
    let (_, t) ← lineEnd t
    return (kind path, t)

/-- Reads a path of keys and its value. -/
def assignment : Reader Statement := fun t => do
  let (path, t) ← keyPath t
  let (_, t) ← equals t
  let (value, t) ← value maxDepth t
  let (_, t) ← lineEnd t
  return (.assignment path value, t)

/-- Reads a statement; comments and line ends are none. -/
def statement : Reader (Option Statement) := fun t =>
  match t with
  | '[' :: '[' :: rest => do
    let (found, t) ← header .rowHeader ['\x5d', '\x5d'] rest
    return (some found, t)
  | ['['] => .error (.invalid t "table header")
  | '[' :: rest => do
    let (found, t) ← header .header ['\x5d'] rest
    return (some found, t)
  | t =>
    if t.head?.any fun c => c == '#' || c == '\n' || c == '\r' then do
      let (_, t) ← lineBreak (skipComment t)
      return (none, t)
    else do
      let (found, t) ← assignment t
      return (some found, t)

/-- The document after a statement that begins here. -/
def Draft.addAt (draft : Draft) (start : Text) (found : Statement) : Except Fault Draft :=
  let result := clashFault start (draft.add found)
  match found with
  | .assignment _ _ => result
  | _ => result.mapError fun fault => fault.inside "table header"

/-- Reads statements to the end, at most this many, and carries them out. -/
def statements : (most : Nat) → Draft → Text → Except Fault Draft
  | 0, _, t => .error (.here t)
  | most + 1, draft, t =>
    match skipSpace t with
    | [] => .ok draft
    | t => do
      match ← statement t with
      | (none, rest) => statements most draft rest
      | (some found, rest) =>
        let draft ← draft.addAt t found
        statements most draft rest

/-- The mark that may stand before a document. -/
def byteOrderMark : Char := Char.ofNat 0xFEFF

/-- A document without the mark before it. -/
def unmarked (t : Text) : Text := t.dropLead [byteOrderMark]

def parse (t : Text) : Except Fault Entries :=
  let t := unmarked t
  (statements (t.length + 1) .empty t).map Draft.entries

end Toml

end SampleHarvest
