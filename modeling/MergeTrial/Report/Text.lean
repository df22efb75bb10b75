import MergeTrial.Report.Summary

/-! The report for readers, line by line. -/

namespace MergeTrial.Report

def heading (s : Summary) : List String :=
  ["Merge strategy evaluation", "=========================", "Source:      " ++ s.source]
    ++ s.runId.toList.map ("Run:         " ++ ·)
    ++ ["Generated:   " ++ s.generatedAt.plain,
      "Scenarios:   " ++ toString s.evaluated ++ " of " ++ toString s.scenarios ++ " evaluated"]
    ++ (if s.cancelled then ["Cancelled:   yes (partial results)"] else [])
    ++ (if s.unavailable.isEmpty then []
      else ["Unavailable: " ++ ", ".intercalate s.unavailable])
    ++ [""]

def percent : Option Share → String
  | some share => share.percent
  | none => "n/a"

def countCell (m : Confusion) (v : Verdict) : String :=
  v.name ++ " " ++ Text.padStart 4 (toString (m.count v))

def countsLine (m : Confusion) : String :=
  "  " ++ "   ".intercalate (Verdict.all.map (countCell m))

def sharesLine (m : Confusion) : String :=
  "  precision " ++ percent m.precisionRate? ++ "   recall " ++ percent m.recallRate?
    ++ "   coverage gap " ++ percent m.coverageGap?

def bucketLine? (m : Confusion) (v : Verdict) : Option String :=
  if (m.scenarios v).isEmpty then none
  else some ("  " ++ Text.padEnd 12 v.name ++ " " ++ ", ".intercalate (m.scenarios v).toList)

def strategySection (strategy : String) (m : Confusion) : List String :=
  [strategy, Text.rule strategy.utf8ByteSize, countsLine m, sharesLine m]
    ++ Verdict.all.filterMap (bucketLine? m) ++ [""]

def cell (metrics : Metrics) (metric : Metric) (a b : String) : String :=
  match metrics.additional? a b with
  | some x => toString (x.count metric)
  | none => "-"

def tableRow (width : Nat) (name : String) (cells : List String) : String :=
  "  " ++ Text.padEnd width name ++ String.join (cells.map fun c => "  " ++ Text.padStart width c)

def table (metrics : Metrics) (metric : Metric) : List String :=
  let names := metrics.pairwise.keys
  let width := names.foldl (fun w name => max w name.utf8ByteSize) 4
  tableRow width metric.name names
    :: names.map (fun a => tableRow width a (names.map (cell metrics metric a))) ++ [""]

def tables (metrics : Metrics) : List String :=
  if metrics.pairwise.toList.isEmpty then []
  else
    ["Additional metrics (row strategy over column strategy)",
      "------------------------------------------------------"]
      ++ Metric.all.flatMap (table metrics)

def gapLine (gap : Gap) : String :=
  "  " ++ Text.padEnd 16 gap.strategy ++ " " ++ Text.padEnd 40 gap.scenario ++ " "
    ++ gap.status.name

def gapLines (metrics : Metrics) : List String :=
  if metrics.gaps.isEmpty then []
  else ["Not classified", "--------------"] ++ metrics.gaps.map gapLine ++ [""]

def lines (s : Summary) (metrics : Metrics) : List String :=
  heading s ++ metrics.matrices.toList.flatMap (fun entry => strategySection entry.1 entry.2)
    ++ tables metrics ++ gapLines metrics

def render (s : Summary) (metrics : Metrics) : String := Text.unlines (lines s metrics)

end MergeTrial.Report
