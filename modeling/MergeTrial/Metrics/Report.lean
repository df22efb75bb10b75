import MergeTrial.Metrics.Confusion
import MergeTrial.Metrics.Additional

/-! The metrics of a list of classifications: a tally for each strategy, a comparison for each
ordered pair of them, and the runs that have no verdict of their own. -/

namespace MergeTrial

/-- A run that produced no merge. -/
structure Gap where
  strategy : String
  scenario : String
  status : Status
  deriving DecidableEq, Inhabited

namespace Gap

def le (a b : Gap) : Bool :=
  if a.strategy = b.strategy then
    if a.scenario = b.scenario then decide (a.status.rank ≤ b.status.rank)
    else decide (a.scenario < b.scenario)
  else decide (a.strategy < b.strategy)

end Gap

structure Metrics where
  matrices : NameMap Confusion
  pairwise : NameMap (NameMap Additional)
  gaps : List Gap
  total : Nat
  deriving DecidableEq

namespace Metrics

structure Tally where
  matrices : NameMap Confusion
  verdicts : NameMap Verdicts
  gaps : List Gap

namespace Tally

def empty : Tally := ⟨∅, ∅, []⟩

def record (t : Tally) (c : Classification) : Tally where
  matrices := t.matrices.alter c.strategy fun matrix => (matrix.getD .empty).record c
  verdicts := t.verdicts.alter c.strategy fun verdicts =>
    (verdicts.getD ∅).insert c.scenario c.verdict
  gaps := if c.verdict = .error then t.gaps ++ [⟨c.strategy, c.scenario, c.status⟩] else t.gaps

def ofList (cs : List Classification) : Tally := cs.foldl record empty

end Tally

def addPair (a : String × Verdicts) (pairs : NameMap (NameMap Additional))
    (b : String × Verdicts) : NameMap (NameMap Additional) :=
  if a.1 = b.1 then pairs
  else pairs.alter a.1 fun row => (row.getD ∅).insert b.1 (.against a.2 b.2)

def compareAll (verdicts : NameMap Verdicts) : NameMap (NameMap Additional) :=
  verdicts.toList.foldl (fun pairs a => verdicts.toList.foldl (addPair a) pairs) ∅

def compute (cs : List Classification) : Metrics :=
  let tally := Tally.ofList cs
  { matrices := tally.matrices
    pairwise := compareAll tally.verdicts
    gaps := tally.gaps.mergeSort Gap.le
    total := cs.length }

def additional? (m : Metrics) (a b : String) : Option Additional :=
  (m.pairwise.get? a).bind (·.get? b)

end Metrics
end MergeTrial
