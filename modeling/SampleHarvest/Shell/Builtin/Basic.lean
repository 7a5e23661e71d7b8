import SampleHarvest.Shell.Process

/-!
# Commands of the shell

Some commands are done by the shell itself, because they change the process that runs them. Their
letters come first, each after a minus sign of its own or several after one; a word that is no group
of letters ends them.

A failure of such a command ends the script if the command is a special one.
-/

namespace SampleHarvest

namespace Shell

/-- A command of the shell, which gives its status. -/
abbrev Builtin := Runner → List Text → Act Nat

namespace Builtin

def refuse (message : Text) : Act Nat := do
  fault message
  return 2

/-- The letters at the front of some words, with their values, and the words behind them; or what is
wrong with a letter. -/
def letters (flags valued : Text) : List Text → Except Text (List (Char × Text) × List Text)
  | [] => .ok ([], [])
  | word :: words =>
    match word with
    | '-' :: c :: group =>
      if word = "--" then .ok ([], words)
      else
        let rec readGroup : Text → Except Text (List (Char × Text) × Bool)
          | [] => .ok ([], false)
          | c :: rest =>
            if flags.any (· == c) then do
              let (others, takesNext) ← readGroup rest
              return ((c, []) :: others, takesNext)
            else if valued.any (· == c) then
              if !rest.isEmpty then .ok ([(c, rest)], false)
              else
                match words with
                | value :: _ => .ok ([(c, value)], true)
                | [] => .error ("No arg for -" ++ [c] ++ " option")
            else .error ("Illegal option -" ++ [c])
        do
          let (found, takesNext) ← readGroup (c :: group)
          match takesNext, words with
          | true, _ :: words => do
            let (others, rest) ← letters flags valued words
            return (found ++ others, rest)
          | _, words => do
            let (others, rest) ← letters flags valued words
            return (found ++ others, rest)
    | _ => .ok ([], word :: words)

/-- Goes on with the letters at the front of some words and the words behind them. -/
def withLetters (flags valued : Text) (words : List Text)
    (act : List (Char × Text) → List Text → Act Nat) : Act Nat := do
  match letters flags valued words with
  | .ok (found, words) => act found words
  | .error message => refuse message

def withNumber (word : Text) (act : Nat → Act Nat) : Act Nat := do
  match Text.toNat? word with
  | some n => if n < 2147483648 then act n else refuse ("Illegal number: " ++ word)
  | none => refuse ("Illegal number: " ++ word)

/-- A text in quotes, so that a shell reads it as it is. -/
def quoted (t : Text) : Text :=
  '\x27' :: (t.flatMap fun c => if c = '\x27' then "'\"'\"'".toList else [c]) ++ ['\x27']

/-- Prints the variables of some kind with their values, after a word. -/
def listVariables (lead : Text) (chosen : Variable → Bool) : Act Unit := do
  let process ← getProcess
  let entries := process.bindings.filter fun entry => chosen entry.2
  for (name, found) in entries.mergeSort fun a b => Text.le a.1 b.1 do
    match found.value? with
    | some value => putLine (lead ++ name ++ ['='] ++ quoted value)
    | none => unless lead.isEmpty do putLine (lead ++ name)

end Builtin

end Shell

end SampleHarvest
