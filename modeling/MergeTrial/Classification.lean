import MergeTrial.Scenario
import MergeTrial.Verdict
import MergeTrial.Fault

/-! Classifications: the verdict on one strategy for one scenario, with what led to it. -/

namespace MergeTrial

structure Classification where
  scenario : String
  strategy : String
  expected : Label
  status : Status
  comparison : Comparison
  predicted : Option Label
  verdict : Verdict
  deriving DecidableEq, Inhabited

namespace Classification

def make (policy : Policy) (scenario strategy : String) (expected : Label) (status : Status)
    (comparison : Comparison) : Classification where
  scenario := scenario
  strategy := strategy
  expected := expected
  status := status
  comparison := comparison
  predicted := status.predicted
  verdict := .judge policy expected status comparison

def ofRun (policy : Policy) (scenario : Scenario) (run : Run) : Outcome Classification :=
  if run.scenario ≠ scenario.name then
    .error (.ambiguous scenario.name run.strategy (.otherScenario run.scenario))
  else if run.status.completed = false ∧ run.comparison ≠ .notComparable then
    .error (.ambiguous scenario.name run.strategy
      (.needlessComparison run.status run.comparison))
  else
    .ok (make policy scenario.name run.strategy scenario.label run.status run.comparison)

theorem ofRun_ofOutput (policy : Policy) (scenario : Scenario) (strategy : String)
    (output : Output) :
    ofRun policy scenario (.ofOutput scenario strategy output) =
      .ok (make policy scenario.name strategy scenario.label output.status
        (.ofOutput output.status output.text scenario.expected)) := by
  let run := Run.ofOutput scenario strategy output
  have h : ¬(run.status.completed = false ∧ run.comparison ≠ .notComparable) :=
    fun h => h.2 (Run.comparison_ofOutput scenario strategy output h.1)
  rw [ofRun, if_neg (by simp [Run.ofOutput]), if_neg h]
  rfl

end Classification
end MergeTrial
