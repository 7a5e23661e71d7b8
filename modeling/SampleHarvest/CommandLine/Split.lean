import SampleHarvest.CommandLine.Answer
import SampleHarvest.CommandLine.Command
import SampleHarvest.Sample.Example

/-!
# Splitting a file

The units of one file are shown with their places in the file, counted from one, and the paths where
their documents would be published, on request with their standalone sources. Nothing is validated
and nothing is written.
-/

namespace SampleHarvest

namespace SplitRequest

/-- The dialect that is given or that the extension of the file tells. -/
def dialectInUse? (request : SplitRequest) : Option Dialect :=
  request.dialect? <|> (Path.extension? request.file).bind Dialect.ofExtension?

def shownCode? (request : SplitRequest) (shown : Example) : Option Text :=
  if request.showsCode then some shown.code else none

def exampleJson (request : SplitRequest) (shown : Example) : Json :=
  let place : List (Text × Json) :=
    [("index", .number shown.index), ("spec_reference", .string shown.reference),
      ("target", .string shown.target.documentPath),
      ("start_line", .number (shown.start + 1 : Nat)), ("end_line", .number shown.stop)]
  match request.shownCode? shown with
  | some code => .object (place ++ [(String.toList "code", .string code)])
  | none => .object place

def exampleLines (request : SplitRequest) (shown : Example) : List Text :=
  ("[" ++ Text.ofNat shown.index ++ "] lines " ++ Text.ofNat (shown.start + 1) ++ "-" ++
    Text.ofNat shown.stop ++ " -> " ++ shown.target.documentPath) ::
    (request.shownCode? shown).toList

/-- The answer about the examples of a file. -/
def answer (request : SplitRequest) (dialect : Dialect) (examples : List Example) : Answer :=
  match request.format with
  | .json => .json (.array (examples.map request.exampleJson))
  | .text =>
    if examples.isEmpty then .lines ["No example units found in " ++ request.file]
    else
      .lines ((Text.ofNat examples.length ++ " unit(s) in " ++ request.file ++ " (" ++
        dialect.name ++ ")") :: examples.flatMap request.exampleLines)

/-- Shows the units of a file. -/
def execute (request : SplitRequest) (disk : Disk) : Except CommandFailure Answer :=
  match request.dialectInUse? with
  | none =>
    .error (.stated .usage
      ("cannot tell the dialect of " ++ request.file ++ "; pass --dialect"))
  | some dialect =>
    match disk.readText request.file with
    | .error fault => .error (.stopped ("Failed to read " ++ request.file) fault)
    | .ok source =>
      let symbol := (Path.stem? request.file).getD []
      .ok (request.answer dialect (extractExamples dialect.rules source symbol))

end SplitRequest

end SampleHarvest
