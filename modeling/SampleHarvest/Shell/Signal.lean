import SampleHarvest.Text.Decimal

/-!
# Signals

A signal has a number, and most have a name and a description too. A process that gets one ends,
stops, or goes on as if nothing had happened; what it does instead is its own choice for all signals
but two.
-/

namespace SampleHarvest

namespace Shell

structure Signal where
  number : Nat
  name : Text
  description : Text
  deriving DecidableEq, Repr

namespace Signal

def lower : List Signal :=
  [⟨1, "HUP", "Hangup"⟩,
    ⟨2, "INT", "Interrupt"⟩,
    ⟨3, "QUIT", "Quit"⟩,
    ⟨4, "ILL", "Illegal instruction"⟩,
    ⟨5, "TRAP", "Trace/breakpoint trap"⟩,
    ⟨6, "ABRT", "Aborted"⟩,
    ⟨7, "BUS", "Bus error"⟩,
    ⟨8, "FPE", "Floating point exception"⟩,
    ⟨9, "KILL", "Killed"⟩,
    ⟨10, "USR1", "User defined signal 1"⟩,
    ⟨11, "SEGV", "Segmentation fault"⟩,
    ⟨12, "USR2", "User defined signal 2"⟩,
    ⟨13, "PIPE", "Broken pipe"⟩,
    ⟨14, "ALRM", "Alarm clock"⟩,
    ⟨15, "TERM", "Terminated"⟩,
    ⟨17, "CHLD", "Child exited"⟩]

def higher : List Signal :=
  [⟨18, "CONT", "Continued"⟩,
    ⟨19, "STOP", "Stopped (signal)"⟩,
    ⟨20, "TSTP", "Stopped"⟩,
    ⟨21, "TTIN", "Stopped (tty input)"⟩,
    ⟨22, "TTOU", "Stopped (tty output)"⟩,
    ⟨23, "URG", "Urgent I/O condition"⟩,
    ⟨24, "XCPU", "CPU time limit exceeded"⟩,
    ⟨25, "XFSZ", "File size limit exceeded"⟩,
    ⟨26, "VTALRM", "Virtual timer expired"⟩,
    ⟨27, "PROF", "Profiling timer expired"⟩,
    ⟨28, "WINCH", "Window changed"⟩,
    ⟨29, "IO", "I/O possible"⟩,
    ⟨30, "PWR", "Power failure"⟩,
    ⟨31, "SYS", "Bad system call"⟩]

def named : List Signal := lower ++ higher

/-- The largest number of a signal. -/
def largest : Nat := 64

/-- The name of a signal for a program: that of its purpose, its place among the signals without
one, or else its number. -/
def nameOf (number : Nat) : Text :=
  match named.find? fun signal => signal.number = number with
  | some signal => signal.name
  | none =>
    if number = 34 then "RTMIN"
    else if number = 64 then "RTMAX"
    else if 34 < number ∧ number ≤ 49 then "RTMIN+" ++ Text.ofNat (number - 34)
    else if 49 < number ∧ number < 64 then "RTMAX-" ++ Text.ofNat (64 - number)
    else Text.ofNat number

/-- The number of the signal with a name, in capitals or not. -/
def ofName? (name : Text) : Option Nat :=
  ((List.range (largest + 1)).drop 1).find? fun number =>
    Text.lower (nameOf number) = Text.lower name && (Text.toNat? (nameOf number)).isNone

/-- What is said about a process that a signal has ended. -/
def descriptionOf (number : Nat) : Text :=
  match named.find? fun signal => signal.number = number with
  | some signal => signal.description
  | none =>
    if number = 16 then "Stack fault"
    else if 34 ≤ number then "Real-time signal " ++ Text.ofNat (number - 34)
    else "Unknown signal " ++ Text.ofNat number

/-- Whether a process goes on when it gets a signal. -/
def isHarmless (number : Nat) : Bool :=
  number == 17 || number == 18 || number == 23 || number == 28

/-- Whether a process stops when it gets a signal. -/
def stops (number : Nat) : Bool := 19 ≤ number && number ≤ 22

end Signal

end Shell

end SampleHarvest
