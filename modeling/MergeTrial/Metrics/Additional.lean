import MergeTrial.Verdict
import MergeTrial.NameMap

/-! What one strategy reached and another did not, on the same scenarios. -/

namespace MergeTrial

inductive Metric where
  | truePositive
  | trueNegative
  | falsePositive
  | falseNegative
  deriving DecidableEq, Inhabited

namespace Metric

def all : List Metric := [.truePositive, .trueNegative, .falsePositive, .falseNegative]

def name : Metric → String
  | .truePositive => "aTP"
  | .trueNegative => "aTN"
  | .falsePositive => "aFP"
  | .falseNegative => "aFN"

def verdict : Metric → Verdict
  | .truePositive => .truePositive
  | .trueNegative => .trueNegative
  | .falsePositive => .falsePositive
  | .falseNegative => .falseNegative

def ofVerdict? (v : Verdict) : Option Metric := all.find? (·.verdict == v)

end Metric

structure ByMetric (α : Type) where
  truePositive : α
  trueNegative : α
  falsePositive : α
  falseNegative : α
  deriving DecidableEq

namespace ByMetric
variable {α : Type}

def const (x : α) : ByMetric α := ⟨x, x, x, x⟩

def get (t : ByMetric α) : Metric → α
  | .truePositive => t.truePositive
  | .trueNegative => t.trueNegative
  | .falsePositive => t.falsePositive
  | .falseNegative => t.falseNegative

def modify (t : ByMetric α) (f : α → α) : Metric → ByMetric α
  | .truePositive => { t with truePositive := f t.truePositive }
  | .trueNegative => { t with trueNegative := f t.trueNegative }
  | .falsePositive => { t with falsePositive := f t.falsePositive }
  | .falseNegative => { t with falseNegative := f t.falseNegative }

@[simp] theorem get_const (x : α) (metric : Metric) : (const x).get metric = x := by
  cases metric <;> rfl

@[simp] theorem get_modify (t : ByMetric α) (f : α → α) (a b : Metric) :
    (t.modify f a).get b = if b = a then f (t.get b) else t.get b := by
  cases a <;> cases b <;> rfl

@[ext] theorem ext {s t : ByMetric α} (h : ∀ metric, s.get metric = t.get metric) : s = t := by
  cases s
  cases t
  exact mk.injEq .. ▸ ⟨h .truePositive, h .trueNegative, h .falsePositive, h .falseNegative⟩

end ByMetric

/-- The last verdict on each scenario. -/
abbrev Verdicts := NameMap Verdict

/-- How often each metric of one strategy over another counts, and the scenarios that it counts, if
there are any. -/
structure Additional where
  counts : ByMetric Nat
  names : ByMetric (Option NameSet)
  deriving DecidableEq

namespace Additional

def empty : Additional := ⟨.const 0, .const none⟩

def record (x : Additional) (scenario : String) (metric : Metric) : Additional where
  counts := x.counts.modify (· + 1) metric
  names := x.names.modify (fun names => some ((names.getD ∅).insert scenario)) metric

def count (x : Additional) (metric : Metric) : Nat := x.counts.get metric

def scenarios (x : Additional) (metric : Metric) : NameSet := (x.names.get metric).getD ∅

def isEmpty (x : Additional) : Bool :=
  x.count .truePositive + x.count .trueNegative + x.count .falsePositive
    + x.count .falseNegative == 0

/-- Counts a verdict, unless the others share it or it earns no metric. A scenario without any
verdict there is not shared. -/
def compare (b : Verdicts) (x : Additional) (entry : String × Verdict) : Additional :=
  if b.get? entry.1 = some entry.2 then x
  else
    match Metric.ofVerdict? entry.2 with
    | none => x
    | some metric => x.record entry.1 metric

def against (a b : Verdicts) : Additional := a.toList.foldl (compare b) empty

@[ext] theorem ext {x y : Additional} (hcounts : ∀ metric, x.count metric = y.count metric)
    (hnames : ∀ metric, x.names.get metric = y.names.get metric) : x = y := by
  cases x
  cases y
  exact mk.injEq .. ▸ ⟨ByMetric.ext hcounts, ByMetric.ext hnames⟩

@[simp] theorem count_empty (metric : Metric) : empty.count metric = 0 := ByMetric.get_const 0 metric

@[simp] theorem names_empty (metric : Metric) : empty.names.get metric = none :=
  ByMetric.get_const none metric

end Additional
end MergeTrial
