import SampleHarvest.Text.Basic

/-!
# Arguments

A command line is read level by level. A level consists of options and operands, up to the name of a
command, with which the next level begins. An option has a long name behind two dashes and perhaps a
letter behind one dash, where several letters can stand together.

The value of an option follows an equals sign, stands right behind the letter or is the next
argument. An argument with a dash in front is not taken for a value unless the option says so. The
first argument that makes no sense decides; nothing behind it is looked at.
-/

namespace SampleHarvest

/-- Why a command line names nothing to be done. -/
inductive Refusal where
  | usage
  | noCommand
  | help
  | version
  deriving DecidableEq, Repr

inductive OptionKind where
  | flag
  | value (accepts : Text → Bool)
  /-- It has a value of any kind each time it is given, dashes in front included. -/
  | anyValues
  | request (refusal : Refusal)

structure OptionRule where
  name : Text
  letter? : Option Char
  kind : OptionKind

namespace OptionRule

def takesValue (option : OptionRule) : Bool :=
  match option.kind with
  | .value _ => true
  | .anyValues => true
  | _ => false

/-- Whether an argument looks like an option. A single dash does not. -/
def looksLikeOption (argument : Text) : Bool := argument.startsWith "-" && 2 ≤ argument.length

def canTake (option : OptionRule) (argument : Text) : Bool :=
  match option.kind with
  | .anyValues => true
  | _ => !looksLikeOption argument

end OptionRule

/-- What can stand on a level of a command line. -/
structure Level where
  options : List OptionRule
  operands : List (Text → Bool)
  /-- The names of the commands with which the next level begins. -/
  commands : List Text

/-- What stands on a level of a command line. -/
structure Given where
  /-- The long names of the options with their values. -/
  options : List (Text × Text)
  operands : List Text
  /-- The name of the command with which the next level begins, and all behind it. -/
  next? : Option (Text × List Text)
  deriving DecidableEq, Repr

namespace Given

/-- A level on which nothing stands. -/
def nothing : Given := ⟨[], [], none⟩

def values (given : Given) (name : Text) : List Text :=
  (given.options.filter fun entry => entry.1 = name).map Prod.snd

def value? (given : Given) (name : Text) : Option Text := (given.values name).head?

def has (given : Given) (name : Text) : Bool := (given.value? name).isSome

/-- The value of an option that has to be given. -/
def required (given : Given) (name : Text) : Except Refusal Text :=
  match given.value? name with
  | some value => .ok value
  | none => .error .usage

/-- The level with one more option. One that is not to be repeated may not be there already. -/
def addOption (given : Given) (option : OptionRule) (value : Text) : Except Refusal Given :=
  let more : Given := { given with options := given.options ++ [(option.name, value)] }
  match option.kind with
  | .request refusal => .error refusal
  | .anyValues => .ok more
  | .flag => if given.has option.name then .error .usage else .ok more
  | .value accepts =>
    if given.has option.name || !accepts value then .error .usage else .ok more

def addOperand (given : Given) (level : Level) (operand : Text) : Except Refusal Given :=
  match level.operands[given.operands.length]? with
  | some accepts =>
    if accepts operand then .ok { given with operands := given.operands ++ [operand] }
    else .error .usage
  | none => .error .usage

end Given

namespace Level

def named? (level : Level) (name : Text) : Option OptionRule :=
  level.options.find? fun option => option.name = name

def lettered? (level : Level) (letter : Char) : Option OptionRule :=
  level.options.find? fun option => option.letter? = some letter

/-- Reads what follows two dashes, and says which option still waits for its value. -/
def readLong (level : Level) (given : Given) (body : Text) :
    Except Refusal (Given × Option OptionRule) := do
  let (name, value?) := match Text.splitFirst? '=' body with
    | some (name, value) => (name, some value)
    | none => (body, none)
  match level.named? name, value? with
  | none, _ => .error .usage
  | some option, some value =>
    if option.takesValue then return (← given.addOption option value, none) else .error .usage
  | some option, none =>
    if option.takesValue then return (given, some option)
    else return (← given.addOption option [], none)

/-- Reads the letters that follow one dash, and says which option still waits for its value. -/
def readShort (level : Level) (given : Given) :
    Text → Except Refusal (Given × Option OptionRule)
  | [] => .ok (given, none)
  | letter :: rest => do
    match level.lettered? letter with
    | none => .error .usage
    | some option =>
      if option.takesValue then
        match rest with
        | [] => return (given, some option)
        | _ => return (← given.addOption option (Text.dropLead rest "="), none)
      else level.readShort (← given.addOption option []) rest

/-- Reads an argument that looks like an option. -/
def readOption (level : Level) (given : Given) (argument : Text) :
    Except Refusal (Given × Option OptionRule) :=
  match Text.after? argument "--" with
  | some body => level.readLong given body
  | none => level.readShort given (argument.drop 1)

def readOperands (level : Level) (given : Given) : List Text → Except Refusal Given
  | [] => .ok given
  | operand :: rest => do level.readOperands (← given.addOperand level operand) rest

/-- Reads arguments behind those that are already given. Two dashes alone make all that follow
operands. -/
def readFrom (level : Level) (given : Given) : List Text → Except Refusal Given
  | [] => .ok given
  | argument :: rest =>
    if argument ∈ level.commands then .ok { given with next? := some (argument, rest) }
    else if argument = "--" then level.readOperands given rest
    else if OptionRule.looksLikeOption argument then do
      match ← level.readOption given argument with
      | (given, none) => level.readFrom given rest
      | (given, some option) =>
        match rest with
        | [] => .error .usage
        | value :: rest =>
          if option.canTake value then level.readFrom (← given.addOption option value) rest
          else .error .usage
    else do level.readFrom (← given.addOperand level argument) rest

/-- Reads the arguments of a level. Every operand has to be there, and a command if there are any
to name. -/
def read (level : Level) (arguments : List Text) : Except Refusal Given := do
  let given ← level.readFrom .nothing arguments
  if given.next?.isNone ∧ !level.commands.isEmpty then
    if given.options.isEmpty then .error .noCommand else .error .usage
  else if given.operands.length < level.operands.length then .error .usage
  else return given

end Level

end SampleHarvest
