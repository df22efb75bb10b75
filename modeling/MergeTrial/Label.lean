/-! Ground truth for a scenario: whether a correct tool stops and asks for help. -/

namespace MergeTrial

inductive Label where
  | conflict
  | success
  deriving DecidableEq, Inhabited

namespace Label

def all : List Label := [.conflict, .success]

def name : Label → String
  | .conflict => "CONFLICT"
  | .success => "SUCCESS"

def ofName? (text : String) : Option Label := all.find? (·.name == text)

theorem ofName?_name (l : Label) : ofName? l.name = some l := by cases l <;> decide

theorem ofName?_eq_some_iff {text : String} {label : Label} :
    ofName? text = some label ↔ text = label.name := by
  refine ⟨fun h => ?_, fun h => h ▸ ofName?_name label⟩
  have hname := List.find?_some (show all.find? (·.name == text) = some label from h)
  exact (eq_of_beq hname).symm

end Label
end MergeTrial
