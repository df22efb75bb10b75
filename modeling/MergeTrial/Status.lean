import MergeTrial.Label
import MergeTrial.Text.Blank

/-! How an invocation of a strategy ended, and the recorded spellings of it. -/

namespace MergeTrial

inductive Status where
  | success
  | conflicts
  | failed
  | skipped
  deriving DecidableEq, Inhabited

namespace Status

def all : List Status := [.success, .conflicts, .failed, .skipped]

def name : Status → String
  | .success => "SUCCESS"
  | .conflicts => "CONFLICTS"
  | .failed => "FAILED"
  | .skipped => "SKIPPED"

def rank : Status → Nat
  | .success => 0
  | .conflicts => 1
  | .failed => 2
  | .skipped => 3

def ofName? (text : String) : Option Status := all.find? (·.name == text)

def completed : Status → Bool
  | .success | .conflicts => true
  | .failed | .skipped => false

def predicted : Status → Option Label
  | .conflicts => some .conflict
  | .success => some .success
  | .failed | .skipped => none

/-- Reads a recorded status. `CONFLICTS` and `FAILED` may carry a note after a blank; the others,
and `NO_OUTPUT` for a tool that never ran, stand alone. -/
def ofRecorded? (text : String) : Option Status :=
  let word := String.ofList (Text.firstWord text.toList)
  let whole := Text.trim text
  if word = conflicts.name then some .conflicts
  else if word = failed.name then some .failed
  else if whole = success.name then some .success
  else if whole = skipped.name ∨ whole = "NO_OUTPUT" then some .skipped
  else none

theorem ofName?_name (s : Status) : ofName? s.name = some s := by cases s <;> decide

theorem ofRecorded?_name (s : Status) : ofRecorded? s.name = some s := by cases s <;> decide

theorem predicted_eq_none_iff (s : Status) : s.predicted = none ↔ s.completed = false := by
  cases s <;> simp [predicted, completed]

end Status
end MergeTrial
