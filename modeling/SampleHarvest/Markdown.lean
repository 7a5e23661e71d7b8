import SampleHarvest.Release.Basic
import SampleHarvest.Text.Utf8

/-!
# Documents

A document is one sentence with a link to the documentation of the release, a blank line, and the
source in a fenced block. The source is written as it is; only a missing line feed at its end is
added.

The link is a template in which placeholders stand for the fields of the release. They are replaced
one kind after the other, each in what the ones before it have left.
-/

namespace SampleHarvest

def hexDigit (n : Nat) : Char := if n < 10 then Char.ofNat (48 + n) else Char.ofNat (55 + n)

/-- Whether a character stands for itself in a path segment of a link. -/
def isUnreserved (c : Char) : Bool :=
  c.isAlphanum || c == '-' || c == '.' || c == '_' || c == '~'

def percentByte (b : UInt8) : Text := ['%', hexDigit (b.toNat / 16), hexDigit (b.toNat % 16)]

/-- A text as a path segment of a link: unreserved characters stay, the bytes of all others are
escaped. -/
def percentEncode (t : Text) : Text :=
  t.flatMap fun c => if isUnreserved c then [c] else (Utf8.encodeChar c).flatMap percentByte

def documentationLink (template : Text) (release : ReleaseInfo) : Text :=
  let link := Text.replaceAll "\x7btag\x7d" (percentEncode release.tag) template
  let link := Text.replaceAll "\x7braw_tag\x7d" release.tag link
  let link := Text.replaceAll "\x7bpackage\x7d" release.package link
  let link := Text.replaceAll "\x7bversion\x7d" release.version link
  Text.replaceAll "\x7bsdk_name\x7d" release.sdkName link

/-- The sentence at the top of every document. -/
def referenceSentence (link : Text) : Text :=
  "Read the [SDK documentation](" ++ link ++
    ") on how to add the SDK to your project and authenticate."

def renderDocument (sentence : Text) (rules : DialectRules) (code : Text) : Text :=
  sentence ++ "\n\n```" ++ rules.fenceTag ++ "\n" ++ code ++ Text.lineEndFor code ++ "```\n"

/-- All that the documents of one release have in common. -/
structure DocumentStyle where
  rules : DialectRules
  sentence : Text

namespace DocumentStyle

def of (rules : DialectRules) (release : ReleaseInfo) (template? : Option Text) : DocumentStyle :=
  { rules
    sentence := referenceSentence
      (documentationLink (template?.getD rules.linkTemplate) release) }

/-- The document that shows a source. -/
def document (style : DocumentStyle) (code : Text) : Text :=
  renderDocument style.sentence style.rules code

end DocumentStyle

end SampleHarvest
