import SampleHarvest.Shell.Installation
import SampleHarvest.Shell.Run
import SampleHarvest.Validation.Program

/-!
# The system that validation programs run on

Validation programs are not part of the library: what they do is up to the machine. So that whole
runs with one can be carried out all the same, here is a machine with a shell and its utilities. It
stands for the outside world, and nothing is proved about it: what is proved of validation holds for
every system.
-/

namespace SampleHarvest

namespace Shell

def printed (machine : Machine) (channel : Channel) : Bytes :=
  let pieces := machine.printed.filterMap fun entry =>
    if entry.1 = channel then some entry.2 else none
  pieces.reverse.flatten

def completion (machine : Machine) : Completion where
  ending :=
    match machine.process.flow? with
    | some (.killed signal) => .killed signal
    | _ => .exited (machine.process.status % 256)
  output := printed machine .output
  errors := printed machine .errors
  time := max machine.time machine.lastEnd

/-- The system that is a fresh machine for each program. -/
def system : System := fun words disk limit? =>
  match run usualRunner (Machine.fresh disk limit?) (words.map Text.toRaw) with
  | .ok machine => .ok (completion machine)
  | .error fault => .error fault.message

end Shell

namespace Program

/-- A disk with the utilities and the scratch folder. -/
def scratchDisk : Disk :=
  let tmp : Text := "tmp"
  let root := Shell.installedTree.put [tmp] scratchName (.folder [])
  ⟨root, [tmp, scratchName]⟩

/-- The oracle that asks a program on a machine with the utilities. -/
def oracle (program : Program) : Oracle :=
  program.oracleIn Shell.system scratchFolder scratchDisk

end Program

end SampleHarvest
