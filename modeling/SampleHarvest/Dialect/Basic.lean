import SampleHarvest.Text.Basic

/-!
# Dialects

Samples come in three languages. A dialect has one short name, under which releases are recorded,
and further spellings that a user may give.
-/

namespace SampleHarvest

/-- The languages whose samples can be taken apart. -/
inductive Dialect where
  /-- Example tests with one free function for each unit. -/
  | go
  /-- An asynchronous function and its own call for each unit. -/
  | javaScript
  | java
  deriving DecidableEq, Repr

namespace Dialect

/-- Every dialect, in the order in which a file extension is looked up. -/
def all : List Dialect := [go, javaScript, java]

/-- The short name, used in the ledger and in reports. -/
def name : Dialect → Text
  | go => "go"
  | javaScript => "js"
  | java => "java"

/-- The dialect that exactly this spelling stands for where a value is stored. -/
def ofStored? (t : Text) : Option Dialect :=
  if t = "go" then some go
  else if t = "js" ∨ t = "javascript" then some javaScript
  else if t = "java" then some java
  else none

/-- A spelling without regard to blanks around it and to ASCII capitals. -/
def spelling (t : Text) : Text := t.trim.lower

/-- The dialect that a user means by a text. -/
def parse? (t : Text) : Option Dialect :=
  if spelling t = "golang" then some go else ofStored? (spelling t)

/-- What is said about a text that means no dialect. -/
def unknownMessage (t : Text) : Text := "unknown dialect '" ++ spelling t ++ "'"

end Dialect

end SampleHarvest
