import MergeTrial.Json.Reader
import MergeTrial.Json.Printer
import MergeTrial.Json.Shape
import MergeTrial.NameMap
import MergeTrial.Fault

/-! Record files: for each scenario its label and, beside it under their names, what the
strategies did. The strings are kept as written; a bad one is reported when it is decoded. -/

namespace MergeTrial

structure RecordedRun where
  execution : Option String
  comparison : Option String
  deriving DecidableEq, Inhabited

namespace RecordedRun

def ofOutcome (status : Status) (comparison : Comparison) : RecordedRun :=
  ⟨some status.name, some comparison.name⟩

def decode (run : RecordedRun) (scenario strategy : String) : Outcome (Status × Comparison) := do
  let status ← match run.execution with
    | none => pure .skipped
    | some text =>
      match Status.ofRecorded? text with
      | some status => pure status
      | none => throw (.ambiguous scenario strategy (.unknownStatus text))
  let comparison ← match run.comparison with
    | none => pure .notComparable
    | some text =>
      match Comparison.ofRecorded? text with
      | some comparison => pure comparison
      | none => throw (.ambiguous scenario strategy (.unknownComparison text))
  return (status, comparison)

def ofJson? (j : Json) : Option RecordedRun := do
  match ← j.fields? ["execution", "comparison"] with
  | [execution, comparison] =>
    return {
      execution := ← Json.withDefault? (Json.nullable? Json.text?) none execution
      comparison := ← Json.withDefault? (Json.nullable? Json.text?) none comparison }
  | _ => none

def members (run : RecordedRun) : List (String × Json) :=
  run.execution.toList.map (fun text => ("execution", Json.text text))
    ++ run.comparison.toList.map fun text => ("comparison", Json.text text)

def toJson (run : RecordedRun) : Json := .record run.members

end RecordedRun

structure Record where
  expected : Option String
  runs : NameMap RecordedRun
  deriving DecidableEq, Inhabited

namespace Record

def labelKey : String := "expected"

def maxDepth : Nat := 125

def run? (j : Json) : Option RecordedRun :=
  if j.depth ≤ maxDepth ∧ j.representable then RecordedRun.ofJson? j else none

def ofMembers? (members : List (String × Json)) : Option Record := do
  let expected ← Json.unique? members labelKey
  let entries ← (members.filter (·.1 != labelKey)).mapM fun member =>
    (run? member.2).map fun run => (member.1, run)
  return {
    expected := ← Json.withDefault? (Json.nullable? Json.text?) none expected
    runs := .ofList entries }

def ofJson? : Json → Option Record
  | .object members => (Json.keyed? members).bind ofMembers?
  | _ => none

def members (record : Record) : List (String × Json) :=
  record.expected.toList.map (fun text => (labelKey, Json.text text))
    ++ record.runs.toList.map fun entry => (entry.1, entry.2.toJson)

def toJson (record : Record) : Json := .record record.members

end Record

abbrev RecordFile := NameMap Record

namespace RecordFile

def entries? : Json → Option (List (String × Record))
  | .object members => do
    let members ← Json.keyed? members
    members.mapM fun member => (Record.ofJson? member.2).map fun record => (member.1, record)
  | _ => none

/-- Reads the text of a record file. All of it must be readable before a scenario that it names
twice is refused. -/
def read (path text : String) : Outcome RecordFile :=
  match (Json.read? text).bind entries? with
  | none => .error (.malformedRecords path)
  | some entries =>
    match NameSet.firstRepeat (entries.map Prod.fst) with
    | some name => .error (.repeatedScenario name)
    | none => .ok (.ofList entries)

def toJson (file : RecordFile) : Json :=
  .record (file.toList.map fun entry => (entry.1, entry.2.toJson))

def write (file : RecordFile) : String := (toJson file).pretty

end RecordFile
end MergeTrial
