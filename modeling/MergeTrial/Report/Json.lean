import MergeTrial.Report.Summary
import MergeTrial.Json.Printer

/-! The report for programs. -/

namespace MergeTrial

namespace NameSet

def toJson (s : NameSet) : Json := .texts s.toList

end NameSet

namespace Confusion

def toJson (strategy : String) (m : Confusion) : Json :=
  .record ([("strategy", .text strategy)]
    ++ Verdict.all.map (fun v => (v.name, .nat (m.count v)))
    ++ [("skipped", .nat m.skipped),
      ("scenarios", .record (Verdict.all.filterMap fun v =>
        (m.names.get v).map fun names => (v.name, names.toJson)))])

end Confusion

namespace Additional

def toJson (x : Additional) : Json :=
  .record (Metric.all.map (fun metric => (metric.name, .nat (x.count metric)))
    ++ [("scenarios", .record (Metric.all.filterMap fun metric =>
      (x.names.get metric).map fun names => (metric.name, names.toJson)))])

end Additional

namespace Gap

def toJson (gap : Gap) : Json :=
  .record [("strategy", .text gap.strategy), ("scenario", .text gap.scenario),
    ("status", .text gap.status.name)]

end Gap

namespace Metrics

def toJson (m : Metrics) : Json :=
  .record [
    ("matrices", .record (m.matrices.toList.map fun entry =>
      (entry.1, entry.2.toJson entry.1))),
    ("pairwise", .record (m.pairwise.toList.map fun row =>
      (row.1, .record (row.2.toList.map fun entry => (entry.1, entry.2.toJson))))),
    ("coverage_gaps", .array (m.gaps.map Gap.toJson)),
    ("total_pairs", .nat m.total)]

end Metrics

namespace Classification

def toJson (c : Classification) : Json :=
  .record [
    ("scenario_name", .text c.scenario),
    ("strategy_name", .text c.strategy),
    ("expected_label", .text c.expected.name),
    ("execution_status", .text c.status.name),
    ("comparison", .text c.comparison.name),
    ("predicted_label", Json.nullable (fun label => .text label.name) c.predicted),
    ("verdict", .text c.verdict.name)]

end Classification

namespace Summary

def members (s : Summary) : List (String × Json) :=
  [("source", .text s.source)]
    ++ s.runId.toList.map (fun id => ("run_id", Json.text id))
    ++ [("generated_at", .text s.generatedAt.stamp),
      ("scenarios", .nat s.scenarios),
      ("scenarios_evaluated", .nat s.evaluated),
      ("cancelled", .bool s.cancelled),
      ("unavailable", .texts s.unavailable),
      ("wrong_merge", .text s.policy.name)]

end Summary

namespace Report

def toJson (s : Summary) (metrics : Metrics) (cs : List Classification) : Json :=
  .record (s.members ++ [("metrics", metrics.toJson),
    ("classifications", .array (cs.map Classification.toJson))])

end Report
end MergeTrial
