import MergeTrial.Comparison

/-! Verdicts on a run. "Positive" means that a conflict needs a human; a verdict depends on the
label, the status and the comparison, and on the policy for clean merges with unexpected text. -/

namespace MergeTrial

inductive Policy where
  | separate
  | trueNegative
  | falsePositive
  deriving DecidableEq, Inhabited

namespace Policy

def all : List Policy := [.separate, .trueNegative, .falsePositive]

def name : Policy → String
  | .separate => "separate"
  | .trueNegative => "true-negative"
  | .falsePositive => "false-positive"

def ofName? (text : String) : Option Policy := all.find? (·.name == text)

theorem ofName?_name (p : Policy) : ofName? p.name = some p := by cases p <;> decide

end Policy

inductive Verdict where
  | truePositive
  | trueNegative
  | falsePositive
  | falseNegative
  | wrongMerge
  | error
  deriving DecidableEq, Inhabited

namespace Verdict

def all : List Verdict :=
  [.truePositive, .trueNegative, .falsePositive, .falseNegative, .wrongMerge, .error]

def name : Verdict → String
  | .truePositive => "TP"
  | .trueNegative => "TN"
  | .falsePositive => "FP"
  | .falseNegative => "FN"
  | .wrongMerge => "WRONG_MERGE"
  | .error => "error"

def ofName? (text : String) : Option Verdict := all.find? (·.name == text)

theorem ofName?_name (v : Verdict) : ofName? v.name = some v := by cases v <;> decide

theorem mem_all (v : Verdict) : v ∈ all := by cases v <;> decide

def ofWrongMerge : Policy → Verdict
  | .separate => .wrongMerge
  | .trueNegative => .trueNegative
  | .falsePositive => .falsePositive

def judge (policy : Policy) (expected : Label) (status : Status) (comparison : Comparison) :
    Verdict :=
  match expected, status.predicted with
  | _, none => .error
  | .conflict, some .conflict => .truePositive
  | .conflict, some .success => .falseNegative
  | .success, some .conflict => .falsePositive
  | .success, some .success =>
    match comparison with
    | .agrees | .notComparable => .trueNegative
    | .differs => ofWrongMerge policy

theorem judge_eq_error_iff (policy : Policy) (expected : Label) (status : Status)
    (comparison : Comparison) :
    judge policy expected status comparison = .error ↔ status.completed = false := by
  cases policy <;> cases expected <;> cases status <;> cases comparison <;> decide

end Verdict

structure ByVerdict (α : Type) where
  truePositive : α
  trueNegative : α
  falsePositive : α
  falseNegative : α
  wrongMerge : α
  error : α
  deriving DecidableEq

namespace ByVerdict
variable {α : Type}

def const (x : α) : ByVerdict α := ⟨x, x, x, x, x, x⟩

def get (t : ByVerdict α) : Verdict → α
  | .truePositive => t.truePositive
  | .trueNegative => t.trueNegative
  | .falsePositive => t.falsePositive
  | .falseNegative => t.falseNegative
  | .wrongMerge => t.wrongMerge
  | .error => t.error

def modify (t : ByVerdict α) (f : α → α) : Verdict → ByVerdict α
  | .truePositive => { t with truePositive := f t.truePositive }
  | .trueNegative => { t with trueNegative := f t.trueNegative }
  | .falsePositive => { t with falsePositive := f t.falsePositive }
  | .falseNegative => { t with falseNegative := f t.falseNegative }
  | .wrongMerge => { t with wrongMerge := f t.wrongMerge }
  | .error => { t with error := f t.error }

@[simp] theorem get_const (x : α) (v : Verdict) : (const x).get v = x := by cases v <;> rfl

@[simp] theorem get_modify (t : ByVerdict α) (f : α → α) (v w : Verdict) :
    (t.modify f v).get w = if w = v then f (t.get w) else t.get w := by
  cases v <;> cases w <;> rfl

@[ext] theorem ext {s t : ByVerdict α} (h : ∀ v, s.get v = t.get v) : s = t := by
  cases s
  cases t
  exact mk.injEq .. ▸ ⟨h .truePositive, h .trueNegative, h .falsePositive, h .falseNegative,
    h .wrongMerge, h .error⟩

end ByVerdict
end MergeTrial
