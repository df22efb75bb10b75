import MergeTrial.Calendar
import MergeTrial.Metrics.Report

/-! What a report says about its pass beside the numbers. -/

namespace MergeTrial

structure Summary where
  source : String
  runId : Option String
  generatedAt : Moment
  scenarios : Nat
  evaluated : Nat
  cancelled : Bool
  unavailable : List String
  policy : Policy
  deriving DecidableEq

end MergeTrial
