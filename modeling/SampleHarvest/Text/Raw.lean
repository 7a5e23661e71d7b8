import SampleHarvest.Text.Utf8

/-!
# Raw texts

A raw text has one character for each byte, the one with the number of the byte. Programs treat all
data as bytes; raw texts let them do so with the functions on texts.

Every sequence of bytes is a raw text, and a text becomes raw by its encoding.
-/

namespace SampleHarvest

namespace Text

def ofBytes (bytes : Bytes) : Text := bytes.map fun b => Char.ofNat b.toNat

def toBytes (raw : Text) : Bytes := raw.map fun c => c.toNat.toUInt8

def toRaw (t : Text) : Text := ofBytes (Utf8.encode t)

/-- The text of which a raw text is the encoding, as far as it is one. -/
def ofRaw (raw : Text) : Text := Utf8.decodeLossy (toBytes raw)

/-- Whether a byte is a blank of the plain character set. -/
def isRawBlank (c : Char) : Bool := c == ' ' || ('\t' ≤ c && c ≤ '\x0d')

end Text

end SampleHarvest
