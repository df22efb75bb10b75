import MergeTrial.Status

/-! Textual equality of a strategy's output with the expected merge. -/

namespace MergeTrial

inductive Comparison where
  | agrees
  | differs
  | notComparable
  deriving DecidableEq, Inhabited

namespace Comparison

def all : List Comparison := [.agrees, .differs, .notComparable]

def name : Comparison → String
  | .agrees => "MATCH"
  | .differs => "DIFFER"
  | .notComparable => "NOT_COMPARABLE"

def ofName? (text : String) : Option Comparison := all.find? (·.name == text)

def ofRecorded? (text : String) : Option Comparison :=
  let word := Text.trim text
  if word = "NO_OUTPUT" then some .notComparable else ofName? word

def ofOutput (status : Status) (output : String) : Option String → Comparison
  | none => .notComparable
  | some expected =>
    if status.completed then if output = expected then .agrees else .differs
    else .notComparable

theorem ofName?_name (c : Comparison) : ofName? c.name = some c := by cases c <;> decide

theorem ofRecorded?_name (c : Comparison) : ofRecorded? c.name = some c := by cases c <;> decide

theorem ofOutput_of_not_completed {status : Status} (h : status.completed = false)
    (output : String) (expected : Option String) :
    ofOutput status output expected = .notComparable := by
  cases expected <;> simp [ofOutput, h]

end Comparison
end MergeTrial
