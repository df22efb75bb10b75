import MergeTrial.Log.Filter
import MergeTrial.Metrics.Report
import MergeTrial.Tool.Pass

/-! The events that the parts of the program log. Each part has a target of its own; what happens
during a pass happens in the span of the pass. -/

namespace MergeTrial.CommandLine.Events
open Log (Event Level Span)

/-! The targets -/

def program : String := "mergebench"

def artifacts : String := "mergebench::artifacts"

def corpus : String := "mergebench_core::corpus"

def pass : String := "mergebench_harness::harness"

def tools : String := "mergebench_harness::command"

def metrics : String := "mergebench_metrics"

def spanOf (runId : String) : Span := ⟨"evaluate", pass, .info, [("run", runId)]⟩

def loaded (scenarios : Nat) : Event :=
  ⟨.info, corpus, ["root", "scenarios"], [], s!"Corpus loaded: {scenarios} scenarios"⟩

def repeated (selection : List Tool) : List Event :=
  List.replicate (selection.length - (Tool.distinct selection).length)
    ⟨.warn, pass, ["strategy"], [], "Duplicate strategy ignored"⟩

def starting : Event :=
  ⟨.info, program, ["corpus", "strategies", "jobs"], [], "Starting evaluation"⟩

def discovery (within : List Span) (tool : Tool) : List Event :=
  match tool.discovery with
  | none => []
  | some discovery =>
    let building : Event :=
      ⟨.info, tools, ["strategy", "command"], within,
        "Building " ++ tool.spec.name ++ " on demand"⟩
    let failing : Event :=
      ⟨.warn, tools, ["strategy", "error"], within,
        "Build command of " ++ tool.spec.name ++ " failed"⟩
    let built := match discovery.built with
      | none => []
      | some succeeded =>
        (if tool.spec.build.any (·.isEmpty) then [] else [building])
          ++ (if succeeded then [] else [failing])
    built ++ discovery.found.toList.map fun resolved =>
      ⟨.debug, tools, ["strategy", "program"], within,
        "Resolved " ++ tool.spec.name ++ ": " ++ Bytes.display resolved.program⟩

def availability (within : List Span) (tool : Tool) : Event :=
  if tool.resolved?.isSome then
    ⟨.info, pass, ["strategy"], within, "Strategy " ++ tool.spec.name ++ " available"⟩
  else
    ⟨.warn, pass, ["error"], within, "All runs of " ++ tool.spec.name ++ " will be skipped"⟩

def stray (dir : Path) : Event :=
  ⟨.warn, tools, ["dir", "error"], [], "Failed to remove scratch directory " ++ Bytes.display dir⟩

def run (within : List Span) (run : Run) : Event :=
  let subject := "Run of " ++ run.strategy ++ " on " ++ run.scenario
  if run.status = .failed then ⟨.warn, pass, ["error"], within, subject ++ " failed"⟩
  else
    ⟨.debug, pass, ["scenario", "strategy", "status", "comparison"], within,
      subject ++ ": " ++ run.status.name⟩

def finished (within : List Span) : Event :=
  ⟨.info, pass, ["scenarios", "strategies", "runs", "cancelled"], within, "Evaluation finished"⟩

def divergences (report : Metrics) : List Event :=
  report.pairwise.toList.flatMap fun row =>
    (row.2.toList.filter fun entry => !entry.2.isEmpty).map fun entry =>
      ⟨.debug, metrics, ["strategy", "over", "a_tp", "a_tn", "a_fp", "a_fn"], [],
        row.1 ++ " diverges from " ++ entry.1⟩

def resultsWritten : Event := ⟨.info, program, ["path"], [], "Results written"⟩

def artifactsWritten (count : Nat) : Event :=
  ⟨.info, artifacts, ["dir", "files"], [], s!"Run artifacts written: {count} files"⟩

end MergeTrial.CommandLine.Events
