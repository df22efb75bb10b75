import MergeTrial.Classification
import MergeTrial.NameSet
import MergeTrial.Metrics.Share

/-! The tally of one strategy's verdicts. Recording is a sum and a union, so the order in which
classifications arrive does not matter. -/

namespace MergeTrial

structure Confusion where
  counts : ByVerdict Nat
  skipped : Nat
  -- the scenarios with each verdict, if there are any
  names : ByVerdict (Option NameSet)
  deriving DecidableEq

namespace Confusion

def empty : Confusion := ⟨.const 0, 0, .const none⟩

def record (m : Confusion) (c : Classification) : Confusion where
  counts := m.counts.modify (· + 1) c.verdict
  skipped := if c.status = .skipped then m.skipped + 1 else m.skipped
  names := m.names.modify (fun names => some ((names.getD ∅).insert c.scenario)) c.verdict

def ofList (cs : List Classification) : Confusion := cs.foldl record empty

def count (m : Confusion) (v : Verdict) : Nat := m.counts.get v

def scenarios (m : Confusion) (v : Verdict) : NameSet := (m.names.get v).getD ∅

def total (m : Confusion) : Nat := Verdict.all.foldl (fun n v => n + m.count v) 0

def precisionRate? (m : Confusion) : Option Share :=
  Share.of? (m.count .truePositive) (m.count .truePositive + m.count .falsePositive)

def recallRate? (m : Confusion) : Option Share :=
  Share.of? (m.count .truePositive) (m.count .truePositive + m.count .falseNegative)

def coverageGap? (m : Confusion) : Option Share := Share.of? (m.count .error) m.total

@[ext] theorem ext {m n : Confusion} (hcounts : ∀ v, m.count v = n.count v)
    (hskipped : m.skipped = n.skipped) (hnames : ∀ v, m.names.get v = n.names.get v) : m = n := by
  cases m
  cases n
  exact mk.injEq .. ▸ ⟨ByVerdict.ext hcounts, hskipped, ByVerdict.ext hnames⟩

@[simp] theorem count_empty (v : Verdict) : empty.count v = 0 := ByVerdict.get_const 0 v

@[simp] theorem names_empty (v : Verdict) : empty.names.get v = none := ByVerdict.get_const none v

@[simp] theorem count_record (m : Confusion) (c : Classification) (v : Verdict) :
    (m.record c).count v = if v = c.verdict then m.count v + 1 else m.count v :=
  ByVerdict.get_modify ..

@[simp] theorem names_record (m : Confusion) (c : Classification) (v : Verdict) :
    (m.record c).names.get v =
      if v = c.verdict then some ((m.scenarios v).insert c.scenario) else m.names.get v :=
  ByVerdict.get_modify ..

theorem total_record (m : Confusion) (c : Classification) :
    (m.record c).total = m.total + 1 := by
  simp only [total, Verdict.all, List.foldl_cons, List.foldl_nil, count_record]
  cases c.verdict <;> simp <;> omega

end Confusion
end MergeTrial
