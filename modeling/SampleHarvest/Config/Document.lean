import SampleHarvest.Config.Basic
import SampleHarvest.Text.Visible
import SampleHarvest.Toml.Grammar

/-!
# Settings as documents

Settings are read from the entries of a document and written as one. What a document does not set
keeps its default, and keys without a meaning are passed over. In place of a table an array may give
the values of its keys in their order. The first entry that cannot be used is the fault.

Numbers without a sign can be greater than a document can hold, and then have no written form.
-/

namespace SampleHarvest

open Toml (Fault)

namespace Toml

/-- What is said of a value that has another kind than is wanted. -/
def describe : Toml → Text
  | string value => "string " ++ value.visible
  | integer value => "integer " ++ mark (Text.ofInt value)
  | boolean true => "boolean " ++ mark "true"
  | boolean false => "boolean " ++ mark "false"
  | fraction written => "floating point " ++ mark written
  | array _ => "sequence"
  | tables _ => "sequence"
  | time _ => "map"
  | table _ _ => "map"

def wrong (cause : Text) : Fault := { place := .value [], cause? := some cause }

def mistyped (value : Toml) (wanted : Text) : Fault :=
  wrong ("invalid type: " ++ describe value ++ ", expected " ++ wanted)

/-- A step in front of those that lead to a place. -/
def Place.under (step : Step) : Place → Place
  | before rest => before rest
  | value path => value (step :: path)
  | key path => key (step :: path)

/-- The fault of a value to which a step leads. -/
def Fault.under (fault : Fault) (step : Step) : Fault :=
  { fault with place := fault.place.under step }

/-- The text that a value is; another one is said not to be what is wanted. -/
def asText (wanted : Text) (value : Toml) : Except Fault Text :=
  match value with
  | string t => .ok t
  | other => .error (mistyped other wanted)

/-- The number without a sign that a value is; another one is said not to be what is wanted. -/
def asNat (wanted : Text) (value : Toml) : Except Fault Nat :=
  match value with
  | integer (.ofNat n) => .ok n
  | integer n =>
    .error (wrong ("invalid value: integer " ++ mark (Text.ofInt n) ++ ", expected " ++ wanted))
  | other => .error (mistyped other wanted)

def eachElement (read : Toml → Except Fault α) (elements : List Toml) : Except Fault (List α) :=
  elements.zipIdx.mapM fun (element, position) =>
    (read element).mapError fun fault => fault.under (.index position)

def asTexts (value : Toml) : Except Fault (List Text) :=
  match value with
  | array elements => eachElement (asText "a string") elements
  | tables rows => eachElement (asText "a string") (rows.map (.table .defined))
  | other => .error (mistyped other "a sequence")

/-- The values of an array for these keys, with the steps to them. -/
def inOrder (keys : List Text) (elements : List Toml) : List (Text × Step × Toml) :=
  (keys.zip elements.zipIdx).map fun (key, element, position) => (key, .index position, element)

/-- What a value gives for these keys, with the steps to it. -/
def asFields (keys : List Text) (kind : Text) (value : Toml) :
    Except Fault (List (Text × Step × Toml)) :=
  match value with
  | table _ entries => .ok (entries.map fun (key, value) => (key, .key key, value))
  | array elements => .ok (inOrder keys elements)
  | tables rows => .ok (inOrder keys (rows.map (.table .defined)))
  | time _ => .ok []
  | other => .error (mistyped other ("struct " ++ kind))

/-- Goes through what a value gives for some keys, and changes the settings for each. -/
def configure (keys : List Text) (kind : Text) (set : Text → Toml → α → Except Fault α)
    (default : α) (value : Toml) : Except Fault α := do
  (← asFields keys kind value).foldlM
    (fun settings (key, step, value) =>
      (set key value settings).mapError fun fault => fault.under step)
    default

def namedPolicy (name : Text) (place : Place) : Except Fault Policy :=
  match Policy.ofName? name with
  | some policy => .ok policy
  | none =>
    let cause := "unknown variant " ++ mark name ++ ", expected " ++ mark "reject" ++ " or " ++
      mark "replace"
    .error { wrong cause with place }

/-- Whether a table stands nowhere because it was only passed through. -/
def isPassedThrough : Toml → Bool
  | table .implied _ => true
  | table .dotted _ => true
  | _ => false

def asNothing (value : Toml) : Except Fault Unit :=
  match value with
  | array [] => .ok ()
  | array _ => .error (wrong "expected empty table")
  | table _ [] => .ok ()
  | table _ _ => .error (wrong "expected empty table")
  | tables [] => .ok ()
  | tables _ => .error (wrong "expected empty array")
  | other => .error (wrong ("expected table, found " ++ other.kindName))

/-- The policy that a value is, as a text or as a table with one empty entry. -/
def asPolicy (value : Toml) : Except Fault Policy :=
  match value with
  | string name => namedPolicy name (.value [])
  | table _ [] => .error (wrong "wanted exactly 1 element, found 0 elements")
  | table _ [(name, inner)] => do
    let policy ← namedPolicy name (.key [.key name])
    let _ ← (asNothing inner).mapError fun fault =>
      if inner.isPassedThrough then fault else fault.under (.key name)
    return policy
  | table _ _ => .error (wrong "wanted exactly 1 element, more than 1 element")
  | _ => .error (wrong "wanted string or table")

end Toml

open Toml (asText asNat asTexts asPolicy configure)

namespace LedgerSettings

def set (key : Text) (value : Toml) (settings : LedgerSettings) :
    Except Fault LedgerSettings := do
  if key = "path" then return { settings with path := ← asText "path string" value }
  if key = "on_duplicate" then return { settings with onDuplicate := ← asPolicy value }
  return settings

def ofToml (default : LedgerSettings) (value : Toml) : Except Fault LedgerSettings :=
  configure ["path", "on_duplicate"] "LedgerConfig" set default value

/-- The written form. -/
def document (settings : LedgerSettings) : Text :=
  Toml.headerLine "ledger" ++ Toml.line "path" (Toml.stringText settings.path) ++
    Toml.line "on_duplicate" (Toml.stringText settings.onDuplicate.name)

end LedgerSettings

namespace ValidationSettings

def set (key : Text) (value : Toml) (settings : ValidationSettings) :
    Except Fault ValidationSettings := do
  if key = "concurrency" then return { settings with concurrency := ← asNat "usize" value }
  if key = "timeout_secs" then
    return { settings with timeoutSeconds? := some (← asNat "u64" value) }
  if key = "command" then return { settings with command? := some (← asText "a string" value) }
  if key = "args" then return { settings with arguments := ← asTexts value }
  return settings

def ofToml (default : ValidationSettings) (value : Toml) : Except Fault ValidationSettings :=
  configure ["concurrency", "timeout_secs", "command", "args"] "ValidationConfig" set default value

/-- The line of a setting that may be missing. -/
def optionalLine (key : Text) (written? : Option Text) : Text :=
  match written? with
  | none => []
  | some written => Toml.line key written

/-- The written form. -/
def document (settings : ValidationSettings) : Text :=
  Toml.headerLine "validation" ++
    Toml.line "concurrency" (Text.ofNat settings.concurrency) ++
    optionalLine "timeout_secs" (settings.timeoutSeconds?.map Text.ofNat) ++
    optionalLine "command" (settings.command?.map Toml.stringText) ++
    Toml.line "args" (Toml.arrayText settings.arguments)

/-- Whether every number has a written form. -/
def isWritable (settings : ValidationSettings) : Bool :=
  (settings.concurrency : Int) ≤ Toml.maxInteger &&
    settings.timeoutSeconds?.all fun (seconds : Nat) => (seconds : Int) ≤ Toml.maxInteger

end ValidationSettings

namespace DocsSettings

def set (key : Text) (value : Toml) (settings : DocsSettings) : Except Fault DocsSettings := do
  if key = "go" then return { settings with go? := some (← asText "a string" value) }
  if key = "js" then return { settings with javaScript? := some (← asText "a string" value) }
  if key = "java" then return { settings with java? := some (← asText "a string" value) }
  return settings

def ofToml (default : DocsSettings) (value : Toml) : Except Fault DocsSettings :=
  configure ["go", "js", "java"] "DocsConfig" set default value

/-- The written form. -/
def document (settings : DocsSettings) : Text :=
  Toml.headerLine "docs" ++
    ValidationSettings.optionalLine "go" (settings.go?.map Toml.stringText) ++
    ValidationSettings.optionalLine "js" (settings.javaScript?.map Toml.stringText) ++
    ValidationSettings.optionalLine "java" (settings.java?.map Toml.stringText)

end DocsSettings

namespace Config

def set (key : Text) (value : Toml) (config : Config) : Except Fault Config := do
  if key = "ledger" then return { config with ledger := ← config.ledger.ofToml value }
  if key = "validation" then
    return { config with validation := ← config.validation.ofToml value }
  if key = "docs" then return { config with docs := ← config.docs.ofToml value }
  return config

/-- The settings that a document gives, with these defaults. -/
def parse (default : Config) (source : Text) : Except Fault Config := do
  configure ["ledger", "validation", "docs"] "Config" set default
    (.table .defined (← Toml.parse source))

/-- The written form of settings, if they have one. -/
def document? (config : Config) : Option Text :=
  if config.validation.isWritable then
    some (config.ledger.document ++ "\n" ++ config.validation.document ++ "\n" ++
      config.docs.document)
  else none

end Config

end SampleHarvest
