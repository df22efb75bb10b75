import MergeTrial.Corpus.Basic
import MergeTrial.Diff.Unified
import MergeTrial.FileTree.Machine

/-! Files for looking at what each strategy produced, in one directory for each scenario: the
merged output of a completed run, what the tool said on the side, and the diff that leads from the
expected merge to the output. -/

namespace MergeTrial.Artifacts

def mergedName (strategy : String) : Option String → String
  | some extension => strategy ++ ".merged." ++ extension
  | none => strategy ++ ".merged"

def diff? (scenario : Scenario) (run : Run) : Option String :=
  match run.comparison, scenario.expected with
  | .differs, some expected =>
    some (Diff.unified "expected" run.strategy expected run.output)
  | _, _ => none

def files (scenario : Scenario) (run : Run) : List (String × String) :=
  (if run.status.completed then [(mergedName run.strategy scenario.extension, run.output)] else [])
    ++ (if Text.allBlank run.stderr then [] else [(run.strategy ++ ".stderr", run.stderr)])
    ++ (diff? scenario run).toList.map fun text => (run.strategy ++ ".diff", text)

/-- Writes the files of one run and says how many there are. A run of a scenario that is not in
the corpus has none. -/
def writeRun (dir : Path) (corpus : Corpus) (run : Run) : FileAction Nat := do
  match corpus.get? run.scenario with
  | none => return 0
  | some scenario =>
    let folder := dir.join (Bytes.ofString scenario.name)
    Machine.makeDirs folder
    (files scenario run).forM fun file =>
      Machine.writeFile (folder.join (Bytes.ofString file.1)) (Bytes.ofString file.2)
    return (files scenario run).length

def write (dir : Path) (corpus : Corpus) (runs : List Run) : FileAction Nat := do
  let counts ← runs.mapM (writeRun dir corpus)
  return counts.foldl (· + ·) 0

end MergeTrial.Artifacts
