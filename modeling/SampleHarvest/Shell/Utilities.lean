import SampleHarvest.Shell.Utility.Columns
import SampleHarvest.Shell.Utility.Compare
import SampleHarvest.Shell.Utility.Dump
import SampleHarvest.Shell.Utility.Edit
import SampleHarvest.Shell.Utility.Expression
import SampleHarvest.Shell.Utility.Find
import SampleHarvest.Shell.Utility.Grep
import SampleHarvest.Shell.Utility.Listing
import SampleHarvest.Shell.Utility.Reading
import SampleHarvest.Shell.Utility.Record
import SampleHarvest.Shell.Utility.Simple
import SampleHarvest.Shell.Utility.Sort
import SampleHarvest.Shell.Utility.Starting
import SampleHarvest.Shell.Utility.Translate

/-!
# The utilities by name

Which utilities there are, and what each name stands for.
-/

namespace SampleHarvest

namespace Shell

open Utility

/-- The utilities that print or compute something without files. -/
def plainUtilities : List (Text × Utility) :=
  [("true", succeed), ("false", fail), ("test", check), ("[", bracket), ("echo", echo),
    ("printf", printf), ("basename", basename), ("dirname", dirname), ("seq", seq),
    ("sleep", sleep), ("pwd", pwd), ("yes", yes), ("uname", uname), ("whoami", whoami),
    ("printenv", printenv), ("expr", expr)]

/-- The utilities that read texts and print something about them. -/
def textUtilities : List (Text × Utility) :=
  [("cat", cat), ("head", head), ("tail", tail), ("wc", wc), ("tee", tee), ("tac", tac),
    ("rev", rev), ("nl", nl), ("sort", sort), ("uniq", uniq), ("comm", comm), ("cut", cut),
    ("paste", paste), ("fold", fold), ("tr", tr), ("od", od), ("cmp", cmp), ("diff", diff),
    ("grep", grep), ("egrep", egrep), ("fgrep", fgrep), ("sed", sed), ("awk", awk), ("mawk", awk)]

/-- The utilities that change the disk or look at it. -/
def diskUtilities : List (Text × Utility) :=
  [("mkdir", mkdir), ("rmdir", rmdir), ("rm", rm), ("touch", touch), ("cp", cp), ("mv", mv),
    ("ln", ln), ("chmod", chmod), ("mktemp", mktemp), ("ls", ls), ("readlink", readlink),
    ("realpath", realpath), ("stat", stat), ("find", find)]

def startingUtilities : List (Text × Utility) :=
  [("env", env), ("xargs", xargs), ("nice", nice), ("nohup", nohup), ("timeout", timeout),
    ("which", which)]

def utilities : List (Text × Utility) :=
  plainUtilities ++ textUtilities ++ diskUtilities ++ startingUtilities

end Shell

end SampleHarvest
