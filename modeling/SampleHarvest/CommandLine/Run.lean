import SampleHarvest.CommandLine.Extract
import SampleHarvest.CommandLine.Invocation
import SampleHarvest.CommandLine.Ledger
import SampleHarvest.CommandLine.Split

/-!
# Runs

A run reads the command line, then the settings, and carries out one command. What it prints goes to
the output if it is an answer. A failure goes there too where a JSON value is expected, on one line,
and to the errors otherwise.

Settings that cannot be read count as a mistake in the use of the program, whatever went wrong with
them.
-/

namespace SampleHarvest

namespace Refusal

/-- The name of the program and its version. -/
def versionText : Text := "exemplar 0.4.0\n"

/-- How the program is used. -/
def helpText : Text :=
  "Usage: exemplar [OPTIONS] <COMMAND>\n\n" ++
  "Commands:\n" ++
  "  extract  Harvest a release, write its documents and record it\n" ++
  "  split    Show the units of one file\n" ++
  "  ledger   Make, ask or change the ledger\n\n" ++
  "Options:\n" ++
  "  -v, --verbose        Accepted, no messages are printed\n" ++
  "  -q, --quiet          Accepted, no messages are printed\n" ++
  "      --no-color       Accepted, no colours are printed\n" ++
  "      --config <FILE>  Settings file\n" ++
  "  -h, --help           Print help\n" ++
  "  -V, --version        Print version\n"

/-- The status with which the program ends. -/
def status : Refusal → Nat
  | usage => 2
  | noCommand => 2
  | help => 0
  | version => 0

def output : Refusal → Text
  | help => helpText
  | version => versionText
  | _ => []

def errors : Refusal → Text
  | usage => "error: the arguments make no sense\n\n" ++ helpText
  | noCommand => helpText
  | _ => []

end Refusal

/-- What a run leaves behind. -/
structure Run where
  disk : Disk
  status : Nat
  output : Text
  errors : Text

/-- Carries out a command under these settings. -/
def Command.execute (command : Command) (config : Config) (now : Instant) (disk : Disk) :
    Executed :=
  match command with
  | .extract request => request.execute config now disk
  | .split request => ⟨disk, request.execute disk⟩
  | .ledger path? command => command.execute (path?.getD config.ledger.path) disk

/-- The paths that a command works on, when the ledger of the settings has this path. -/
def Command.paths (ledgerPath : Path) : Command → List Path
  | .extract request =>
    let ledger := request.ledger?.getD ledgerPath
    [request.sources, request.output, ledger, Disk.lockPath ledger]
  | .split request => [request.file]
  | .ledger path? command =>
    let ledger := path?.getD ledgerPath
    [ledger, Disk.lockPath ledger] ++ command.targets

/-- What a command prints and how the program ends. A program that is broken off gives no report. -/
def Executed.run (executed : Executed) (inJson : Bool) : Run :=
  match executed.result with
  | .ok answer => ⟨executed.disk, answer.status, answer.text, []⟩
  | .error failure =>
    if failure.category = .aborted then ⟨executed.disk, failure.category.status, [], []⟩
    else if inJson then ⟨executed.disk, failure.category.status, failure.json.compact ++ "\n", []⟩
    else ⟨executed.disk, failure.category.status, [], failure.text⟩

namespace Invocation

/-- Reads the settings and carries out the command. -/
def execute (invocation : Invocation) (surroundings : Surroundings) (disk : Disk) : Executed :=
  match Config.load surroundings disk invocation.config? with
  | .error failure => ⟨disk, .error (.stated .usage failure.message)⟩
  | .ok config => invocation.command.execute config surroundings.now disk

def run (invocation : Invocation) (surroundings : Surroundings) (disk : Disk) : Run :=
  (invocation.execute surroundings disk).run invocation.command.answersInJson

end Invocation

end SampleHarvest
