import MergeTrial.Records.File
import MergeTrial.Classification

/-! Classifying recorded results without running anything. Every strategy mentioned anywhere in a
file is judged on every scenario of it; a scenario without an entry for it counts as skipped. -/

namespace MergeTrial

namespace Record

def label (record : Record) (scenario : String) : Outcome Label :=
  match record.expected with
  | none => .error (.missingLabel scenario)
  | some text =>
    match Label.ofName? text with
    | some label => .ok label
    | none => .error (.invalidLabel scenario text)

def outcome (record : Record) (scenario strategy : String) : Outcome (Status × Comparison) :=
  match record.runs.get? strategy with
  | some run => run.decode scenario strategy
  | none => .ok (.skipped, .notComparable)

def classify (policy : Policy) (strategies : List String) (scenario : String)
    (record : Record) : Outcome (List Classification) := do
  let label ← record.label scenario
  strategies.mapM fun strategy => do
    let (status, comparison) ← record.outcome scenario strategy
    return .make policy scenario strategy label status comparison

end Record

namespace RecordFile

def strategies (file : RecordFile) : NameSet :=
  .ofList (file.toList.flatMap fun entry => entry.2.runs.keys)

def classify (policy : Policy) (file : RecordFile) : Outcome (List Classification) := do
  let rows ← file.toList.mapM fun entry =>
    entry.2.classify policy (strategies file).toList entry.1
  return rows.flatten

end RecordFile
end MergeTrial
