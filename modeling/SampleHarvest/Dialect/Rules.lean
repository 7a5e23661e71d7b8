import SampleHarvest.Dialect.Basic
import SampleHarvest.Text.Lines

/-!
# Dialect rules

All that the scanner knows about a language is a set of tests on single lines and a few constants.
The same scanner runs over every dialect; nothing else depends on the language.

A marker is a comment line that names the specification example shown by the routine below it.
-/

namespace SampleHarvest

/-- What becomes of the line that ends the file header. -/
inductive HeaderCut where
  | keepEndLine
  | dropEndLine
  deriving DecidableEq, Repr

/-- The tests and constants of one dialect. -/
structure DialectRules where
  /-- How a trimmed marker line begins; the rest of the line is the reference. -/
  markerLead : Text
  /-- Whether a unit stands alone only with the lines after the last unit. -/
  requiresEpilogue : Bool
  /-- The name that a shared symbol gets, in dialects with one symbol for each file. -/
  renameTarget? : Option Text
  /-- What becomes of the line that ends the header. -/
  headerCut : HeaderCut
  /-- What is put after the `examples` folder of a reference. -/
  folderSuffix : Text
  /-- The language named at the opening fence of a code block. -/
  fenceTag : Text
  extension : Text
  sourceEnding : Text
  linkTemplate : Text
  isUnitStart : Line → Bool
  isUnitEnd : Line → Bool
  isComment : Line → Bool
  isHeaderEnd : Line → Bool

namespace DialectRules

/-- The trimmed reference on a marker line, and none on any other line. -/
def markerValue? (rules : DialectRules) (line : Line) : Option Text :=
  (line.trim.after? rules.markerLead).map Text.trim

def isMarker (rules : DialectRules) (line : Line) : Bool := (rules.markerValue? line).isSome

def acceptsFileName (rules : DialectRules) (name : Text) : Bool := name.endsWith rules.sourceEnding

end DialectRules

namespace Line

/-- A line that begins with two slashes after its blanks. -/
def isSlashComment (line : Line) : Bool := (Text.trim line).startsWith "//"

def isBlockOrSlashComment (line : Line) : Bool :=
  let t := Text.trim line
  t.startsWith "*" || t.startsWith "/*" || t.startsWith "//"

def isBlank (line : Line) : Bool := (Text.trim line).isEmpty

end Line

def Dialect.rules : Dialect → DialectRules
  | .go =>
    { markerLead := "// x-ms-original-file:"
      requiresEpilogue := false
      renameTarget? := none
      headerCut := .keepEndLine
      folderSuffix := "-go"
      fenceTag := "go"
      extension := "go"
      sourceEnding := "_test.go"
      linkTemplate :=
        "https://github.com/Azure/azure-sdk-for-go/blob/\x7btag\x7d/\x7bpackage\x7d/README.md"
      isUnitStart := fun line => Text.startsWith line "func "
      isUnitEnd := fun line => Text.startsWith line "\x7d"
      isComment := Line.isSlashComment
      isHeaderEnd := fun line => Text.startsWith line "package" }
  | .javaScript =>
    { markerLead := "* x-ms-original-file:"
      requiresEpilogue := false
      renameTarget? := none
      headerCut := .keepEndLine
      folderSuffix := "-js"
      fenceTag := "javascript"
      extension := "js"
      sourceEnding := ".js"
      linkTemplate :=
        "https://github.com/Azure/azure-sdk-for-js/blob/\x7btag\x7d/sdk/\x7bsdk_name\x7d" ++
          "/arm-\x7bsdk_name\x7d/README.md"
      isUnitStart := fun line => Text.startsWith line "async function "
      isUnitEnd := fun line => Text.contains line ".catch(console.error);"
      isComment := Line.isBlockOrSlashComment
      isHeaderEnd := fun line => !Line.isBlank line && !Line.isBlockOrSlashComment line }
  | .java =>
    { markerLead := "* x-ms-original-file:"
      requiresEpilogue := true
      renameTarget? := some "Main"
      headerCut := .dropEndLine
      folderSuffix := "-java"
      fenceTag := "java"
      extension := "java"
      sourceEnding := ".java"
      linkTemplate :=
        "https://github.com/Azure/azure-sdk-for-java/blob/\x7braw_tag\x7d/sdk/\x7bsdk_name\x7d" ++
          "/\x7bpackage\x7d/README.md"
      isUnitStart := fun line => Text.startsWith line "    public static void "
      isUnitEnd := fun line => Text.startsWith line "    \x7d"
      isComment := Line.isBlockOrSlashComment
      isHeaderEnd := fun line => Text.startsWith line "package" }

/-- The dialect of a file extension, which is compared exactly. -/
def Dialect.ofExtension? (extension : Text) : Option Dialect :=
  Dialect.all.find? fun dialect => dialect.rules.extension == extension

end SampleHarvest
