import MergeTrial.Classification
import MergeTrial.Corpus.Basic
import MergeTrial.Records.File
import MergeTrial.Settings

/-! What an evaluation pass plans and what it produces. -/

namespace MergeTrial

structure Reply where
  delay : Nat
  output : Option Output
  deriving DecidableEq, Inhabited

namespace Pass

def grace : Nat := 500

def limit (timeout : Nat) : Nat := timeout + grace

/-- What an invocation hands back within its limit: a failure if the answer is late, and nothing
if it breaks down before. -/
def invoke (timeout : Nat) (reply : Reply) : Option Output :=
  if limit timeout < reply.delay then
    some (.failed ("timed out after " ++ toString (limit timeout) ++ " ms"))
  else reply.output

def aborted : Output := .failed "adapter task aborted before returning"

def settle (timeout : Nat) (reply : Reply) : Output := (invoke timeout reply).getD aborted

def jobs (settings : PassSettings) : Nat := max settings.jobs 1

def maxJobs : Nat := UInt64.size / 8 - 1

def checkJobs (settings : PassSettings) : Outcome Unit :=
  if jobs settings ≤ maxJobs then .ok ()
  else .error (.breakdown "there are no permits for so many jobs")

def distinctAfter {α : Type} (name : α → String) (seen : NameSet) : List α → List α
  | [] => []
  | x :: rest =>
    if name x ∈ seen then distinctAfter name seen rest
    else x :: distinctAfter name (seen.insert (name x)) rest

def distinct {α : Type} (name : α → String) (xs : List α) : List α := distinctAfter name ∅ xs

/-- The pairs of a scenario and a strategy in the order of a pass. -/
def plan (scenarios strategies : List String) : List (String × String) :=
  scenarios.flatMap fun scenario => strategies.map fun strategy => (scenario, strategy)

end Pass

/-- Everything that a pass produced, in the order of its plan. -/
structure Evaluation where
  runs : List Run
  classifications : List Classification
  unavailable : List String
  cancelled : Bool
  evaluated : Nat
  deriving DecidableEq, Inhabited

namespace Evaluation

def labelRecords (corpus : Corpus) : RecordFile :=
  .ofList (corpus.scenarios.map fun scenario => (scenario.name, ⟨some scenario.label.name, ∅⟩))

def recordRun (file : RecordFile) (run : Run) : RecordFile :=
  match file.get? run.scenario with
  | none => file
  | some record =>
    file.insert run.scenario { record with
      runs := record.runs.insert run.strategy (.ofOutcome run.status run.comparison) }

def toRecords (evaluation : Evaluation) (corpus : Corpus) : RecordFile :=
  evaluation.runs.foldl recordRun (labelRecords corpus)

end Evaluation
end MergeTrial
