import MergeTrial.Shell.Utility.Columns
import MergeTrial.Shell.Utility.Comparing
import MergeTrial.Shell.Utility.Copying
import MergeTrial.Shell.Utility.Editing
import MergeTrial.Shell.Utility.Launching
import MergeTrial.Shell.Utility.Lines
import MergeTrial.Shell.Utility.Listing
import MergeTrial.Shell.Utility.Merging
import MergeTrial.Shell.Utility.Searching
import MergeTrial.Shell.Utility.Sorting

/-! The programs that the machine knows, by their names. -/

namespace MergeTrial.Shell.Utility

def all : List (String × Work Unit) :=
  [("[", test), ("basename", basename), ("cat", cat), ("chmod", chmod), ("cmp", cmp), ("comm", comm), ("cp", cp),
    ("cut", cut), ("diff", diff), ("diff3", diff3), ("dirname", dirname), ("echo", echo), ("env", env), ("expr", expr),
    ("false", fail), ("fold", fold), ("grep", grep), ("head", head), ("install", install), ("ln", ln), ("ls", ls),
    ("mkdir", mkdir), ("mktemp", mktemp), ("mv", mv), ("nice", nice), ("nl", nl),
    ("nohup", nohup), ("paste", paste), ("printenv", printenv), ("printf", printf), ("pwd", pwd),
    ("readlink", readlink), ("realpath", realpath), ("rev", rev), ("rm", rm), ("rmdir", rmdir),
    ("sed", sed), ("seq", seq), ("sleep", sleep), ("sort", sort), ("sync", succeed), ("tac", tac),
    ("tail", tail), ("tee", tee), ("test", test), ("timeout", timeout), ("touch", touch),
    ("tr", tr), ("true", succeed), ("truncate", truncate), ("uname", uname), ("uniq", uniq),
    ("unlink", unlink), ("wc", wc), ("xargs", xargs), ("yes", yes)]

def named? (name : String) : Option (Work Unit) := all.lookup name

end MergeTrial.Shell.Utility
