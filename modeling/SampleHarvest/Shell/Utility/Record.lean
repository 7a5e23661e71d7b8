import SampleHarvest.Shell.Record.Run

/-!
# Running programs on records

A program that is given as an argument or in files is run on the records of other files. Settings of
variables can stand before it and among the files.
-/

namespace SampleHarvest

namespace Shell

namespace Utility

/-- What is given before the program. -/
structure RecordOptions where
  separator? : Option Text := none
  settings : List (Text × Text) := []
  files : List Text := []
  operands : List Text := []

/-- Reads the options in front of a program. -/
def recordOptions : List Text → Except Text RecordOptions
  | [] => .ok {}
  | word :: words =>
    match word with
    | ['-'] => .ok { operands := word :: words }
    | ['-', '-'] => .ok { operands := words }
    | ['-', letter] =>
      if "Ffv".toList.any (· == letter) then
        match words with
        | [] => .error ("option -" ++ [letter] ++ " lacks argument")
        | value :: words => do add letter value (← recordOptions words)
      else .error ("not an option: " ++ word)
    | '-' :: letter :: value =>
      if "Ffv".toList.any (· == letter) then do add letter value (← recordOptions words)
      else .error ("not an option: " ++ word)
    | _ => .ok { operands := word :: words }
where
  /-- The options with one more in front. -/
  add (letter : Char) (value : Text) (options : RecordOptions) : Except Text RecordOptions :=
    if letter = 'F' then .ok { options with separator? := some (options.separator?.getD value) }
    else if letter = 'f' then .ok { options with files := value :: options.files }
    else
      match Record.assignment value with
      | some setting => .ok { options with settings := setting :: options.settings }
      | none => .error ("improper assignment: -v " ++ value)

/-- How a program on records is used. -/
def recordUsage : Text :=
  "Usage: mawk [Options] [Program] [file ...]\n\n" ++
    "Program:\n" ++
    "    The -f option value is the name of a file containing program text.\n" ++
    "    If no -f option is given, a \"--\" ends option processing; the following\n" ++
    "    parameters are the program text.\n\n" ++
    "Options:\n" ++
    "    -f program-file  Program  text is read from file instead of from the\n" ++
    "                     command-line.  Multiple -f options are accepted.\n" ++
    "    -F value         sets the field separator, FS, to value.\n" ++
    "    -v var=value     assigns value to program variable var.\n" ++
    "    --               unambiguous end of options.\n"

/-- The text of the files of a program, or why one cannot be read. -/
def recordSource : List Text → Act (Except Text Text)
  | [] => return .ok []
  | file :: files => do
    match ← readOperand file with
    | .error fault => return .error ("cannot open \"" ++ file ++ "\" (" ++ fault.reason ++ ")")
    | .ok source => return (← recordSource files).map (source ++ ·)

/-- Runs a program on records. -/
def awk : Utility := fun runner words => do
  match recordOptions words with
  | .error message => abort message 2
  | .ok options =>
    if options.files.isEmpty ∧ options.operands.isEmpty then
      let _ ← writeTo 2 recordUsage
      return 2
    else
      let isInFile := !options.files.isEmpty
      let source? ←
        if isInFile then recordSource options.files
        else pure (.ok (options.operands.headD []))
      let arguments := if isInFile then options.operands else options.operands.drop 1
      match source? with
      | .error message => abort message 2
      | .ok source =>
        match Record.parse source with
        | .error complaints =>
          let lead : Text := if isInFile then options.files.headD [] ++ ": " else []
          for complaint in complaints do
            say (lead ++ complaint)
          return 2
        | .ok program =>
          let separator? := (options.separator?.filter (!·.isEmpty)).map fun value =>
            ("FS".toList, value)
          Record.run runner program (separator?.toList ++ options.settings) arguments

end Utility

end Shell

end SampleHarvest
