import SampleHarvest.Shell.Utility.Basic

/-!
# Dumps

The bytes of files are shown sixteen on a line, in one or more ways, behind the place of the first
one. Lines that are the same as the one before are left out, with a star in the place of all of
them.
-/

namespace SampleHarvest

namespace Shell

namespace Utility

/-- How bytes are shown. -/
structure DumpStyle where
  /-- The letter of the way: characters, or numbers in some base. -/
  letter : Char
  size : Nat := 1
  hasCharacters : Bool := false
  deriving DecidableEq, Repr

/-- How many characters a number of a style takes. -/
def DumpStyle.width (style : DumpStyle) : Nat :=
  let most := Nat.pow 2 (8 * style.size) - 1
  match style.letter with
  | 'o' => (Nat.toDigits 8 most).length
  | 'x' => (Nat.toDigits 16 most).length
  | 'd' => (Text.ofNat (Nat.pow 2 (8 * style.size - 1))).length + 1
  | 'u' => (Text.ofNat most).length
  | _ => 3

/-- The names of the first characters that cannot be printed. -/
def lowNames : List Text :=
  ["nul", "soh", "stx", "etx", "eot", "enq", "ack", "bel", "bs", "ht", "nl", "vt", "ff", "cr",
    "so", "si"]

/-- The names of the other characters that cannot be printed, and of the blank. -/
def highNames : List Text :=
  ["dle", "dc1", "dc2", "dc3", "dc4", "nak", "syn", "etb", "can", "em", "sub", "esc", "fs", "gs",
    "rs", "us", "sp"]

/-- A number in some base, with zeros in front. -/
def digitsIn (base width n : Nat) : Text :=
  let digits : Text := Nat.toDigits base n
  List.replicate (width - digits.length) '0' ++ digits

def dumpCharacter (c : Char) : Text :=
  match c with
  | '\x00' => ['\\', '0']
  | '\x07' => ['\\', 'a']
  | '\x08' => ['\\', 'b']
  | '\t' => ['\\', 't']
  | '\n' => ['\\', 'n']
  | '\x0b' => ['\\', 'v']
  | '\x0c' => ['\\', 'f']
  | '\x0d' => ['\\', 'r']
  | c => if ' ' ≤ c ∧ c ≤ '~' then [c] else digitsIn 8 3 c.toNat

/-- Bytes as one number, of which the first byte is the lowest. -/
def littleEndian : Text → Nat
  | [] => 0
  | c :: t => c.toNat + 256 * littleEndian t

def DumpStyle.showNumber (style : DumpStyle) (bytes : Text) : Text :=
  let n := littleEndian bytes
  let most := Nat.pow 2 (8 * style.size)
  let shown : Text :=
    match style.letter with
    | 'c' => dumpCharacter (bytes.headD '\x00')
    | 'a' =>
      let n := n % 128
      if n = 127 then ['d', 'e', 'l'] else ((lowNames ++ highNames)[n]?).getD [Char.ofNat n]
    | 'o' => digitsIn 8 style.width n
    | 'x' => digitsIn 16 style.width n
    | 'd' => if most ≤ 2 * n then '-' :: Text.ofNat (most - n) else Text.ofNat n
    | _ => Text.ofNat n
  List.replicate (style.width + 1 - shown.length) ' ' ++ shown

/-- Bytes in groups of a size, at most so many groups. -/
def groupsOf (size : Nat) : (most : Nat) → Text → List Text
  | 0, _ => []
  | _, [] => []
  | most + 1, t => t.take size :: groupsOf size most (t.drop size)

def DumpStyle.line (style : DumpStyle) (width : Nat) (bytes : Text) : Text :=
  let groups := groupsOf style.size (bytes.length + 1) bytes
  let shown := groups.flatMap style.showNumber
  if !style.hasCharacters then shown
  else
    let missing := width / style.size - groups.length
    shown ++ List.replicate (missing * (style.width + 1)) ' ' ++ "  >" ++
      bytes.map (fun c => if ' ' ≤ c ∧ c ≤ '~' then c else '.') ++ ['<']

def dumpStyles : (most : Nat) → Text → List DumpStyle
  | 0, _ => []
  | _, [] => []
  | most + 1, letter :: t =>
    let digits := t.takeWhile Char.isDigit
    let rest := t.drop digits.length
    let (size?, rest) : Option Nat × Text :=
      match Text.toNat? digits, rest with
      | some n, rest => (some n, rest)
      | none, 'C' :: rest => (some 1, rest)
      | none, 'S' :: rest => (some 2, rest)
      | none, 'I' :: rest => (some 4, rest)
      | none, 'L' :: rest => (some 8, rest)
      | none, rest => (none, rest)
    let isCharacter := letter == 'c' || letter == 'a'
    let size := if isCharacter then 1 else size?.getD 4
    match rest with
    | 'z' :: rest => { letter, size, hasCharacters := true } :: dumpStyles most rest
    | rest => { letter, size } :: dumpStyles most rest

/-- The style of a letter among the options. -/
def styleOfOption (option : Char × Text) : List DumpStyle :=
  match option.1 with
  | 't' => dumpStyles option.2.length option.2
  | 'c' => [{ letter := 'c' }]
  | 'a' => [{ letter := 'a' }]
  | 'b' => [{ letter := 'o' }]
  | 'x' => [{ letter := 'x', size := 2 }]
  | 'h' => [{ letter := 'x', size := 2 }]
  | 'o' => [{ letter := 'o', size := 2 }]
  | 'd' => [{ letter := 'u', size := 2 }]
  | 's' => [{ letter := 'd', size := 2 }]
  | 'i' => [{ letter := 'd', size := 4 }]
  | _ => []

/-- A place, in the base that a letter means. -/
def dumpPlace (letter : Char) (n : Nat) : Text :=
  match letter with
  | 'd' => digitsIn 10 7 n
  | 'x' => digitsIn 16 6 n
  | 'n' => []
  | _ => digitsIn 8 7 n

def dumpLines (styles : List DumpStyle) (base : Char) (width : Nat) (showsAll : Bool) :
    (place : Nat) → (before? : Option Text) → (isLeftOut : Bool) → List Text → List Text
  | _, _, _, [] => []
  | place, before?, isLeftOut, bytes :: groups =>
    let next := place + bytes.length
    if !showsAll ∧ before? = some bytes ∧ bytes.length = width then
      (if isLeftOut then [] else [['*']]) ++
        dumpLines styles base width showsAll next before? true groups
    else
      let lead := dumpPlace base place
      let lines := styles.zipIdx.map fun (style, i) =>
        (if i = 0 then lead else List.replicate lead.length ' ') ++ style.line width bytes
      lines ++ dumpLines styles base width showsAll next (some bytes) false groups

/-- The number that a word means: decimal, octal or hexadecimal, with a unit or without one. -/
def dumpNumber? (word : Text) : Option Nat :=
  let digit (c : Char) : Nat :=
    if c.isDigit then Text.digitValue c else c.toLower.toNat + 10 - 'a'.toNat
  match word with
  | '0' :: 'x' :: t => some (t.foldl (fun n c => 16 * n + digit c) 0)
  | '0' :: t => some (t.foldl (fun n c => 8 * n + digit c) 0)
  | t =>
    let digits := t.takeWhile Char.isDigit
    let units : List (Text × Nat) := [([], 1), (['b'], 512), (['k'], 1024), (['K'], 1024)]
    match Text.toNat? digits, units.lookup (t.drop digits.length) with
    | some n, some unit => some (n * unit)
    | _, _ => none

/-- Shows the bytes of files. -/
def od : Utility := fun _ words =>
  withOptions
    { flags := "abcdhiosxv", valued := "AjNtw"
      names := [⟨"address-radix", 'A', true⟩, ⟨"skip-bytes", 'j', true⟩,
        ⟨"read-bytes", 'N', true⟩, ⟨"format", 't', true⟩, ⟨"width", 'w', true⟩,
        ⟨"output-duplicates", 'v', false⟩] }
    words fun given => do
      let (content, status) ← readAll [] 0 (inputs given.operands)
      let skipped := ((given.value? 'j').bind dumpNumber?).getD 0
      let bytes := content.drop skipped
      let bytes := ((given.value? 'N').bind dumpNumber?).elim bytes bytes.take
      let base := ((given.value? 'A').bind List.head?).getD 'o'
      let width := ((given.value? 'w').bind dumpNumber?).getD 16
      let styles := given.options.flatMap styleOfOption
      let styles := if styles.isEmpty then [{ letter := 'o', size := 2 }] else styles
      let groups := groupsOf width (bytes.length + 1) bytes
      for line in dumpLines styles base width (given.has 'v') skipped none false groups do
        putLine line
      unless base = 'n' do putLine (dumpPlace base (skipped + bytes.length))
      return status

end Utility

end Shell

end SampleHarvest
