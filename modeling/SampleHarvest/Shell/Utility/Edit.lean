import SampleHarvest.Shell.Edit.Run

/-!
# Editing lines

The lines of files are edited by a script, which is given as an argument, in parts behind options,
or in files.
-/

namespace SampleHarvest

namespace Shell

namespace Utility

/-- How the editor of lines is used. -/
def editorUsage : Text :=
  "Usage: sed [OPTION]... \x7bscript-only-if-no-other-script\x7d [input-file]...\n\n" ++
    "  -n, --quiet, --silent\n" ++
    "                 suppress automatic printing of pattern space\n" ++
    "      --debug\n" ++
    "                 annotate program execution\n" ++
    "  -e script, --expression=script\n" ++
    "                 add the script to the commands to be executed\n" ++
    "  -f script-file, --file=script-file\n" ++
    "                 add the contents of script-file to the commands to be executed\n" ++
    "  --follow-symlinks\n" ++
    "                 follow symlinks when processing in place\n" ++
    "  -i[SUFFIX], --in-place[=SUFFIX]\n" ++
    "                 edit files in place (makes backup if SUFFIX supplied)\n" ++
    "  -l N, --line-length=N\n" ++
    "                 specify the desired line-wrap length for the `l' command\n" ++
    "  --posix\n" ++
    "                 disable all GNU extensions.\n" ++
    "  -E, -r, --regexp-extended\n" ++
    "                 use extended regular expressions in the script\n" ++
    "                 (for portability use POSIX -E).\n" ++
    "  -s, --separate\n" ++
    "                 consider files as separate rather than as a single,\n" ++
    "                 continuous long stream.\n" ++
    "      --sandbox\n" ++
    "                 operate in sandbox mode (disable e/r/w commands).\n" ++
    "  -u, --unbuffered\n" ++
    "                 load minimal amounts of data from the input files and flush\n" ++
    "                 the output buffers more often\n" ++
    "  -z, --null-data\n" ++
    "                 separate lines by NUL characters\n" ++
    "      --help     display this help and exit\n" ++
    "      --version  output version information and exit\n\n" ++
    "If no -e, --expression, -f, or --file option is given, then the first\n" ++
    "non-option argument is taken as the sed script to interpret.  All\n" ++
    "remaining arguments are names of input files; if no input files are\n" ++
    "specified, then the standard input is read.\n\n"

/-- A text in quotes of two kinds. -/
def backquoted (t : Text) : Text := Char.ofNat 0x60 :: (t ++ ['\x27'])

def editorNames : List LongOption :=
  [⟨"quiet", 'n', false⟩, ⟨"silent", 'n', false⟩, ⟨"expression", 'e', true⟩, ⟨"file", 'f', true⟩,
    ⟨"line-length", 'l', true⟩, ⟨"posix", 'p', false⟩, ⟨"regexp-extended", 'E', false⟩,
    ⟨"separate", 's', false⟩, ⟨"unbuffered", 'u', false⟩, ⟨"null-data", 'z', false⟩,
    ⟨"follow-symlinks", 'u', false⟩]

/-- The words without the option that has files replaced, and what that option adds to the names of
the old ones. -/
def takeInPlace : List Text → List Text × Option Text
  | [] => ([], none)
  | word :: words =>
    let (others, found?) := takeInPlace words
    if word = "--" then (word :: words, none)
    else if word = "--in-place" then (others, found?.or (some []))
    else
      match Text.after? word "--in-place=", word with
      | some ending, _ => (others, found?.or (some ending))
      | none, '-' :: letter :: letters =>
        if letter = '-' then (word :: others, found?)
        else
          let front := (letter :: letters).takeWhile fun c => "nErsuz".toList.any (· == c)
          match (letter :: letters).drop front.length with
          | 'i' :: ending =>
            (if front.isEmpty then others else ('-' :: front) :: others, found?.or (some ending))
          | _ => (word :: others, found?)
      | none, _ => (word :: others, found?)

/-- The parts of a script that options give, in order. -/
def scriptParts : List (Char × Text) → Act (Except Text (List Edit.Part))
  | [] => return .ok []
  | ('e', source) :: options => do
    return (← scriptParts options).map (({ source } : Edit.Part) :: ·)
  | ('f', file) :: options => do
    match ← readOperand file with
    | .error fault => return .error ("couldn't open file " ++ file ++ ": " ++ fault.reason)
    | .ok source =>
      return (← scriptParts options).map (({ source, file? := some file } : Edit.Part) :: ·)
  | _ :: options => scriptParts options

/-- Edits the lines of files. -/
def sed : Utility := fun _ words => do
  let (words, inPlace?) := takeInPlace words
  let knowledge : Knowledge :=
    { flags := "nErsuz", valued := "efl", names := editorNames }
  let usage : Act Nat := do
    let _ ← writeTo 2 editorUsage
    return 1
  match parseOptions knowledge words with
  | .error message =>
    say message
    usage
  | .ok given =>
    let isGiven := given.has 'e' || given.has 'f'
    if !isGiven ∧ given.operands.isEmpty then
      usage
    else
      let options :=
        if isGiven then given.options else [('e', given.operands.headD [])]
      let files := if isGiven then given.operands else given.operands.drop 1
      match ← scriptParts options with
      | .error message => abort message 4
      | .ok parts =>
        match Edit.parse (given.has 'E' || given.has 'r') parts with
        | .error message => abort message (if message = Regex.bareClass then 4 else 1)
        | .ok script =>
          match Edit.missingLabel? script, inPlace?.isSome && files.isEmpty with
          | some name, _ => abort ("can't find label for jump to " ++ backquoted name) 4
          | none, true => abort "no input files" 4
          | none, false =>
            let first := (parts.head?.map Edit.Part.source).getD []
            let isSilenced := Text.startsWith first "#n"
            let settings : Edit.Settings :=
              { isQuiet := given.has 'n' || isSilenced
                isSeparate := given.has 's' || inPlace?.isSome
                inPlace?
                lineEnd := if given.has 'z' then '\x00' else '\n'
                width := ((given.value? 'l').bind Text.toNat?).getD 70 }
            Edit.run settings script (inputs files)

end Utility

end Shell

end SampleHarvest
