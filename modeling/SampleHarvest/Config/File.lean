import SampleHarvest.Config.Document
import SampleHarvest.Disk.Basic
import SampleHarvest.Toml.Place

/-!
# Settings files

Settings come from the file that is named by the user, else from the file that an environment
variable names, else from a fixed place below the home folder. Only the last of these may be
missing.
-/

namespace SampleHarvest

/-- What the surroundings of a run decide. -/
structure Surroundings where
  home : Path
  /-- The value of the environment variable that names a settings file. -/
  configVariable? : Option Text
  now : Instant

namespace Surroundings

/-- Where the ledger is unless the settings say otherwise. -/
def ledgerPath (surroundings : Surroundings) : Path :=
  Path.join surroundings.home ".local/share/exemplar/examples.db"

/-- Where the settings are unless a file is named. -/
def configPath (surroundings : Surroundings) : Path :=
  Path.join surroundings.home ".config/exemplar/config.toml"

/-- The settings that hold unless a file says otherwise. -/
def defaults (surroundings : Surroundings) : Config := Config.default surroundings.ledgerPath

/-- The settings file that is named, by the user or by the environment. -/
def namedConfig? (surroundings : Surroundings) (explicit? : Option Path) : Option Path :=
  explicit? <|> surroundings.configVariable?.filter fun path => !path.isEmpty

end Surroundings

namespace Config

/-- Reads the settings in a file. -/
def loadFrom (default : Config) (disk : Disk) (path : Path) : Except Failure Config :=
  match disk.readText path with
  | .error fault =>
    .error (.config ("Failed to read config " ++ path ++ ": " ++ fault.message))
  | .ok source =>
    match default.parse source with
    | .error fault => .error (.config ("Failed to parse config: " ++ fault.report source))
    | .ok config =>
      match config.defect? with
      | some defect => .error (.config defect.message)
      | none => .ok config

/-- Reads the settings of a run. -/
def load (surroundings : Surroundings) (disk : Disk) (explicit? : Option Path) :
    Except Failure Config :=
  match surroundings.namedConfig? explicit? with
  | some path => surroundings.defaults.loadFrom disk path
  | none =>
    if disk.has surroundings.configPath then
      surroundings.defaults.loadFrom disk surroundings.configPath
    else .ok surroundings.defaults

/-- Writes settings to a file, in folders that are made where they are missing. -/
def saveTo (config : Config) (disk : Disk) (path : Path) : Disk × Except Failure Unit :=
  match disk.createFolders ((Path.parent? path).getD []) with
  | (disk, .error fault) =>
    (disk, .error (.config ("Failed to create config directory: " ++ fault.message)))
  | (disk, .ok ()) =>
    match config.document? with
    | none =>
      (disk, .error (.config "Failed to serialize config: out-of-range value for u64 type"))
    | some document =>
      match disk.writeText path document with
      | .ok disk => (disk, .ok ())
      | .error fault =>
        (disk, .error (.config ("Failed to write config: " ++ fault.message)))

end Config

end SampleHarvest
