import SampleHarvest.Text.Basic

/-!
# UTF-8

Characters as bytes and back. `decode?` refuses every sequence that is not well-formed UTF-8,
`decodeLossy` puts U+FFFD for each longest part that could have begun a character.

Encoding and strict decoding are inverse to each other: no character has two encodings.
-/

namespace SampleHarvest

abbrev Bytes := List UInt8

namespace Utf8

def encodeChar (c : Char) : Bytes :=
  let n := c.toNat
  if n < 0x80 then [n.toUInt8]
  else if n < 0x800 then [(0xC0 + n / 0x40).toUInt8, (0x80 + n % 0x40).toUInt8]
  else if n < 0x10000 then
    [(0xE0 + n / 0x1000).toUInt8, (0x80 + n / 0x40 % 0x40).toUInt8, (0x80 + n % 0x40).toUInt8]
  else
    [(0xF0 + n / 0x40000).toUInt8, (0x80 + n / 0x1000 % 0x40).toUInt8,
      (0x80 + n / 0x40 % 0x40).toUInt8, (0x80 + n % 0x40).toUInt8]

def encode (t : Text) : Bytes := t.flatMap encodeChar

/-- How many bytes a text takes. -/
def size (t : Text) : Nat := (encode t).length

/-- Where a decoder stands: between characters, or after part of one. -/
inductive State where
  | start
  /-- `owed` more bytes are needed, the next one between `low` and `high`; `value` holds the bits so
  far. -/
  | inside (value owed : Nat) (low high : UInt8)

/-- The state after the first byte of a character, if the byte can be one. -/
def State.ofLead? (b : UInt8) : Option State :=
  let n := b.toNat
  if b < 0xC2 then none
  else if b < 0xE0 then some (.inside (n - 0xC0) 1 0x80 0xBF)
  else if b == 0xE0 then some (.inside 0 2 0xA0 0xBF)
  else if b == 0xED then some (.inside 0xD 2 0x80 0x9F)
  else if b < 0xF0 then some (.inside (n - 0xE0) 2 0x80 0xBF)
  else if b == 0xF0 then some (.inside 0 3 0x90 0xBF)
  else if b < 0xF4 then some (.inside (n - 0xF0) 3 0x80 0xBF)
  else if b == 0xF4 then some (.inside 4 3 0x80 0x8F)
  else none

/-- Decodes from a state; a byte that does not fit, or an end inside a character, refuses all. -/
def decodeFrom? : State → Bytes → Option Text
  | .start, [] => some []
  | .inside .., [] => none
  | .start, b :: bytes =>
    if b < 0x80 then (decodeFrom? .start bytes).map (Char.ofNat b.toNat :: ·)
    else (State.ofLead? b).bind (decodeFrom? · bytes)
  | .inside value owed low high, b :: bytes =>
    if low ≤ b && b ≤ high then
      let value := value * 0x40 + (b.toNat - 0x80)
      if owed ≤ 1 then (decodeFrom? .start bytes).map (Char.ofNat value :: ·)
      else decodeFrom? (.inside value (owed - 1) 0x80 0xBF) bytes
    else none

/-- The text that well-formed bytes encode. -/
def decode? (bytes : Bytes) : Option Text := decodeFrom? .start bytes

def replacement : Char := Char.ofNat 0xFFFD

/-- Decodes one byte from the state between characters. -/
def lossyLead (b : UInt8) : Text × State :=
  if b < 0x80 then ([Char.ofNat b.toNat], .start)
  else
    match State.ofLead? b with
    | some state => ([], state)
    | none => ([replacement], .start)

/-- Decodes from a state, with a replacement character for every part that is not well-formed. -/
def decodeLossyFrom : State → Bytes → Text
  | .start, [] => []
  | .inside .., [] => [replacement]
  | .start, b :: bytes =>
    let (front, state) := lossyLead b
    front ++ decodeLossyFrom state bytes
  | .inside value owed low high, b :: bytes =>
    if low ≤ b && b ≤ high then
      let value := value * 0x40 + (b.toNat - 0x80)
      if owed ≤ 1 then Char.ofNat value :: decodeLossyFrom .start bytes
      else decodeLossyFrom (.inside value (owed - 1) 0x80 0xBF) bytes
    else
      let (front, state) := lossyLead b
      replacement :: front ++ decodeLossyFrom state bytes

/-- The text of any bytes; what is not well-formed becomes U+FFFD. -/
def decodeLossy (bytes : Bytes) : Text := decodeLossyFrom .start bytes

end Utf8

end SampleHarvest
