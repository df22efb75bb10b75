import MergeTrial.Comparison

/-! Three-way merge cases, what a strategy makes of one, and the run that results. -/

namespace MergeTrial

structure Scenario where
  name : String
  label : Label
  ancestor : String
  left : String
  right : String
  expected : Option String
  extension : Option String
  deriving DecidableEq, Inhabited

structure Output where
  status : Status
  text : String
  stderr : String
  deriving DecidableEq, Inhabited

namespace Output

def success (text : String) : Output := ⟨.success, text, ""⟩

def conflicts (text : String) : Output := ⟨.conflicts, text, ""⟩

def failed (stderr : String) : Output := ⟨.failed, "", stderr⟩

def skipped (reason : String) : Output := ⟨.skipped, "", reason⟩

end Output

structure Run where
  scenario : String
  strategy : String
  status : Status
  output : String
  stderr : String
  comparison : Comparison
  deriving DecidableEq, Inhabited

namespace Run

def ofOutput (scenario : Scenario) (strategy : String) (output : Output) : Run where
  scenario := scenario.name
  strategy := strategy
  status := output.status
  output := output.text
  stderr := output.stderr
  comparison := .ofOutput output.status output.text scenario.expected

def unavailable (scenario : Scenario) (strategy : String) : Run :=
  ofOutput scenario strategy (.skipped (strategy ++ " is unavailable"))

theorem comparison_ofOutput (scenario : Scenario) (strategy : String) (output : Output)
    (h : output.status.completed = false) :
    (ofOutput scenario strategy output).comparison = .notComparable :=
  Comparison.ofOutput_of_not_completed h ..

end Run
end MergeTrial
