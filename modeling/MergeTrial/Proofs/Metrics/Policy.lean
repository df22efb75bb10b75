import MergeTrial.Proofs.Metrics.Accounting

/-! What the policy for wrong merges changes in a report. Under a policy that folds them into
another verdict, each classification keeps all but its verdict, and that only changes if it was a
wrong merge. So every tally is a sum of tallies of the report that keeps wrong merges apart, and
the comparisons by metrics that no wrong merge is folded into stay as they are. -/

namespace MergeTrial

namespace NameMap
variable {α β : Type}

theorem get?_foldl_insert_map (f : α → β) (entries : List (String × α)) {m : NameMap α}
    {m' : NameMap β} (h : ∀ name, m'.get? name = (m.get? name).map f) (name : String) :
    ((entries.map fun entry => (entry.1, f entry.2)).foldl
        (fun m entry => m.insert entry.1 entry.2) m').get? name =
      ((entries.foldl (fun m entry => m.insert entry.1 entry.2) m).get? name).map f := by
  induction entries generalizing m m' with
  | nil => exact h name
  | cons entry rest ih =>
    refine ih fun other => ?_
    rw [get?_insert, get?_insert, h]
    split <;> rfl

theorem get?_ofList_map (f : α → β) (entries : List (String × α)) (name : String) :
    (ofList (entries.map fun entry => (entry.1, f entry.2))).get? name =
      ((ofList entries).get? name).map f :=
  get?_foldl_insert_map f entries (fun _ => rfl) name

end NameMap

namespace Verdict

def fold (policy : Policy) : Verdict → Verdict
  | .wrongMerge => ofWrongMerge policy
  | v => v

def foldedInto (policy : Policy) (v : Verdict) : List Verdict :=
  all.filter fun u => u.fold policy = v

theorem judge_eq_fold (policy : Policy) (expected : Label) (status : Status)
    (comparison : Comparison) : judge policy expected status comparison =
      (judge .separate expected status comparison).fold policy := by
  cases policy <;> cases expected <;> cases status <;> cases comparison <;> rfl

theorem fold_eq_error_iff (policy : Policy) (v : Verdict) :
    v.fold policy = .error ↔ v = .error := by
  cases policy <;> cases v <;> decide

theorem mem_foldedInto {policy : Policy} {u v : Verdict} :
    u ∈ foldedInto policy v ↔ u.fold policy = v := by
  simp only [foldedInto, List.mem_filter, mem_all, true_and, decide_eq_true_eq]

theorem nodup_foldedInto (policy : Policy) (v : Verdict) : (foldedInto policy v).Nodup := by
  cases policy <;> cases v <;> decide

section
variable {policy : Policy} (hpolicy : policy ≠ .separate)
include hpolicy

theorem foldedInto_ofWrongMerge :
    foldedInto policy (ofWrongMerge policy) = [ofWrongMerge policy, .wrongMerge] := by
  revert hpolicy
  cases policy <;> decide

theorem foldedInto_wrongMerge : foldedInto policy .wrongMerge = [] := by
  revert hpolicy
  cases policy <;> decide

end

theorem foldedInto_of_ne {policy : Policy} {v : Verdict} (hinto : v ≠ ofWrongMerge policy)
    (hwrong : v ≠ .wrongMerge) : foldedInto policy v = [v] := by
  revert hinto hwrong
  cases policy <;> cases v <;> decide

end Verdict

namespace Metric

def ofConflicts : List Metric := [.truePositive, .falseNegative]

theorem fold_eq_verdict_iff {metric : Metric} (h : metric ∈ ofConflicts) (policy : Policy)
    (v : Verdict) : v.fold policy = metric.verdict ↔ v = metric.verdict := by
  revert h
  cases metric <;> cases policy <;> cases v <;> decide

end Metric

namespace Classification

def fold (policy : Policy) (c : Classification) : Classification :=
  { c with verdict := c.verdict.fold policy }

theorem make_eq_fold (policy : Policy) (scenario strategy : String) (expected : Label)
    (status : Status) (comparison : Comparison) :
    make policy scenario strategy expected status comparison =
      (make .separate scenario strategy expected status comparison).fold policy := by
  rw [make, Verdict.judge_eq_fold]
  rfl

theorem ofStrategy_map_fold (policy : Policy) (strategy : String) (cs : List Classification) :
    ofStrategy strategy (cs.map (fold policy)) = (ofStrategy strategy cs).map (fold policy) :=
  List.filter_map

end Classification

namespace Confusion

/-- The matrix of a strategy with wrong merges folded into a verdict, against the one with wrong
merges kept apart. -/
structure FoldsInto (into : Verdict) (separate folded : Confusion) : Prop where
  count_into : folded.count into = separate.count into + separate.count .wrongMerge
  scenarios_into : folded.scenarios into =
    (separate.scenarios into).union (separate.scenarios .wrongMerge)
  count_wrongMerge : folded.count .wrongMerge = 0
  names_wrongMerge : folded.names.get .wrongMerge = none
  kept : ∀ v, v ≠ into → v ≠ .wrongMerge →
    folded.count v = separate.count v ∧ folded.names.get v = separate.names.get v
  skipped : folded.skipped = separate.skipped
  total : folded.total = separate.total
  recallRate : folded.recallRate? = separate.recallRate?

theorem filter_map_fold (policy : Policy) (own : List Classification) (v : Verdict) :
    (own.map (Classification.fold policy)).filter (fun c => c.verdict = v) =
      (own.filter fun c => c.verdict ∈ Verdict.foldedInto policy v).map
        (Classification.fold policy) := by
  rw [List.filter_map]
  refine congrArg _ (List.filter_congr fun c _ => ?_)
  exact decide_eq_decide.2 Verdict.mem_foldedInto.symm

theorem count_fold (policy : Policy) (own : List Classification) (v : Verdict) :
    (ofList (own.map (.fold policy))).count v =
      ((Verdict.foldedInto policy v).map (ofList own).count).sum := by
  rw [count_ofList, filter_map_fold, List.length_map,
    sum_count_ofList own (Verdict.nodup_foldedInto policy v)]

theorem names_fold (policy : Policy) (own : List Classification) (v : Verdict) :
    (ofList (own.map (.fold policy))).names.get v = NameSet.ofList?
      ((own.filter fun c => c.verdict ∈ Verdict.foldedInto policy v).map (·.scenario)) := by
  rw [names_ofList, filter_map_fold, List.map_map]
  rfl

theorem skipped_fold (policy : Policy) (own : List Classification) :
    (ofList (own.map (.fold policy))).skipped = (ofList own).skipped := by
  rw [skipped_ofList, skipped_ofList, List.filter_map, List.length_map]
  rfl

theorem foldsInto_ofList {policy : Policy} (hpolicy : policy ≠ .separate)
    (own : List Classification) :
    FoldsInto (.ofWrongMerge policy) (ofList own) (ofList (own.map (.fold policy))) := by
  have hinto := Verdict.foldedInto_ofWrongMerge hpolicy
  have hwrong := Verdict.foldedInto_wrongMerge hpolicy
  have hcount : ∀ v, v ≠ .ofWrongMerge policy → v ≠ .wrongMerge →
      (ofList (own.map (.fold policy))).count v = (ofList own).count v := by
    intro v hne hnot
    rw [count_fold, Verdict.foldedInto_of_ne hne hnot, List.map_singleton, List.sum_singleton]
  have hconflicts : .truePositive ≠ Verdict.ofWrongMerge policy ∧
      .falseNegative ≠ Verdict.ofWrongMerge policy := by
    cases policy <;> decide
  refine ⟨?_, ?_, ?_, ?_, fun v hne hnot => ⟨hcount v hne hnot, ?_⟩, skipped_fold policy own, ?_,
    ?_⟩
  · rw [count_fold, hinto]
    simp only [List.map_cons, List.map_nil, List.sum_cons, List.sum_nil, Nat.add_zero]
  · ext scenario
    rw [scenarios, names_fold, hinto, NameSet.mem_getD_ofList?, NameSet.mem_union,
      mem_scenarios_ofList, mem_scenarios_ofList]
    simp only [List.mem_map, List.mem_filter, decide_eq_true_eq, List.mem_cons, List.not_mem_nil,
      or_false, and_assoc, or_and_right, and_or_left, exists_or]
  · rw [count_fold, hwrong]
    rfl
  · rw [names_fold, hwrong]
    simp only [List.not_mem_nil, decide_false, List.filter_false]
    rfl
  · rw [names_fold, Verdict.foldedInto_of_ne hne hnot, names_ofList]
    simp only [List.mem_singleton]
  · rw [total_ofList, total_ofList, List.length_map]
  · rw [recallRate?, recallRate?, hcount _ hconflicts.1 (by decide),
      hcount _ hconflicts.2 (by decide)]

end Confusion

namespace Additional
variable {a b a' b' : Verdicts} {metric : Metric}

theorem against_congr
    (ha : ∀ x, a'.get? x = some metric.verdict ↔ a.get? x = some metric.verdict)
    (hb : ∀ x, b'.get? x = some metric.verdict ↔ b.get? x = some metric.verdict) :
    (against a' b').count metric = (against a b).count metric ∧
      (against a' b').names.get metric = (against a b).names.get metric := by
  have hmem : ∀ x, x ∈ counted a' b' metric ↔ x ∈ counted a b metric := by
    intro x
    rw [mem_counted, mem_counted, ha, Ne, Ne, hb]
  have hperm := (List.perm_ext_iff_of_nodup (nodup_counted a' b' metric)
    (nodup_counted a b metric)).2 hmem
  rw [count_against, count_against, names_against, names_against, NameSet.ofList?_congr hmem]
  exact ⟨hperm.length_eq, rfl⟩

end Additional

namespace Metrics

structure Row where
  scenario : String
  strategy : String
  expected : Label
  status : Status
  comparison : Comparison

def Row.judge (policy : Policy) (row : Row) : Classification :=
  .make policy row.scenario row.strategy row.expected row.status row.comparison

/-- The report on rows that are judged under a policy. -/
def ofRows (policy : Policy) (rows : List Row) : Metrics := compute (rows.map (Row.judge policy))

/-- A report with wrong merges folded into a verdict, against the one with wrong merges kept
apart. -/
structure FoldsInto (into : Verdict) (separate folded : Metrics) : Prop where
  strategies : ∀ strategy,
    strategy ∈ folded.matrices.keys ↔ strategy ∈ separate.matrices.keys
  matrices : ∀ strategy m m', separate.matrices.get? strategy = some m →
    folded.matrices.get? strategy = some m' → m.FoldsInto into m'
  pairs : ∀ a b, (folded.additional? a b).isSome = (separate.additional? a b).isSome
  comparisons : ∀ a b x x', separate.additional? a b = some x →
    folded.additional? a b = some x' → ∀ metric ∈ Metric.ofConflicts,
      x'.count metric = x.count metric ∧ x'.names.get metric = x.names.get metric
  gaps : folded.gaps = separate.gaps
  total : folded.total = separate.total

variable {policy : Policy} {cs : List Classification}

theorem map_strategy_fold (policy : Policy) (cs : List Classification) :
    (cs.map (Classification.fold policy)).map (·.strategy) = cs.map (·.strategy) := by
  rw [List.map_map]
  rfl

theorem get?_verdictsOf_fold (policy : Policy) (strategy scenario : String)
    (cs : List Classification) : (verdictsOf strategy (cs.map (.fold policy))).get? scenario =
      ((verdictsOf strategy cs).get? scenario).map (.fold policy) := by
  rw [verdictsOf, Classification.ofStrategy_map_fold, List.map_map, verdictsOf,
    ← NameMap.get?_ofList_map, List.map_map]
  rfl

theorem get?_verdictsOf_fold_eq_iff {metric : Metric} (h : metric ∈ Metric.ofConflicts)
    (strategy scenario : String) :
    (verdictsOf strategy (cs.map (.fold policy))).get? scenario = some metric.verdict ↔
      (verdictsOf strategy cs).get? scenario = some metric.verdict := by
  rw [get?_verdictsOf_fold]
  cases (verdictsOf strategy cs).get? scenario with
  | none => exact Iff.rfl
  | some v =>
    simp only [Option.map_some, Option.some.injEq]
    exact Metric.fold_eq_verdict_iff h policy v

theorem gaps_fold (policy : Policy) (cs : List Classification) :
    (compute (cs.map (.fold policy))).gaps = (compute cs).gaps := by
  rw [compute, compute, Tally.gaps_ofList, Tally.gaps_ofList, List.filterMap_map]
  refine congrArg (List.mergeSort · Gap.le) (List.filterMap_congr fun c _ => ?_)
  simp only [Function.comp_apply, gap?, Classification.fold, Verdict.fold_eq_error_iff]

theorem foldsInto_compute (hpolicy : policy ≠ .separate) (cs : List Classification) :
    FoldsInto (.ofWrongMerge policy) (compute cs) (compute (cs.map (.fold policy))) where
  strategies := fun strategy => by
    rw [mem_keys_matrices, mem_keys_matrices, map_strategy_fold]
  matrices := fun strategy m m' hm hm' => by
    rw [eq_matrixOf hm, eq_matrixOf hm', matrixOf, matrixOf, Classification.ofStrategy_map_fold]
    exact Confusion.foldsInto_ofList hpolicy _
  pairs := fun a b => by
    rw [additional?_compute, additional?_compute, map_strategy_fold]
    split <;> rfl
  comparisons := fun a b x x' hx hx' metric hmetric => by
    obtain ⟨-, rfl⟩ := additional?_eq_some_iff.1 hx
    obtain ⟨-, rfl⟩ := additional?_eq_some_iff.1 hx'
    exact Additional.against_congr (get?_verdictsOf_fold_eq_iff hmetric a)
      (get?_verdictsOf_fold_eq_iff hmetric b)
  gaps := gaps_fold policy cs
  total := List.length_map _

theorem ofRows_eq_fold (policy : Policy) (rows : List Row) : ofRows policy rows =
    compute ((rows.map (Row.judge .separate)).map (Classification.fold policy)) := by
  rw [ofRows, List.map_map]
  exact congrArg compute (List.map_congr_left fun row _ => Classification.make_eq_fold ..)

theorem foldsInto_ofRows (hpolicy : policy ≠ .separate) (rows : List Row) :
    FoldsInto (.ofWrongMerge policy) (ofRows .separate rows) (ofRows policy rows) := by
  rw [ofRows_eq_fold policy]
  exact foldsInto_compute hpolicy _

/-- The policy for wrong merges shows in a report only where it folds them into another verdict. -/
theorem policy_folds_wrongMerges (rows : List Row) :
    FoldsInto .trueNegative (ofRows .separate rows) (ofRows .trueNegative rows) ∧
      FoldsInto .falsePositive (ofRows .separate rows) (ofRows .falsePositive rows) := by
  have hnegative : Policy.trueNegative ≠ .separate := by decide
  have hpositive : Policy.falsePositive ≠ .separate := by decide
  exact ⟨foldsInto_ofRows hnegative rows, foldsInto_ofRows hpositive rows⟩

/-- A clean merge with unexpected content joins the one that agreed. -/
example :
    let rows : List Row := [⟨"S", "x", .success, .success, .differs⟩,
      ⟨"T", "x", .success, .success, .agrees⟩, ⟨"S", "y", .conflict, .failed, .notComparable⟩]
    let count policy v := ((ofRows policy rows).matrices.get? "x").map (·.count v)
    count .separate .trueNegative = some 1 ∧ count .separate .wrongMerge = some 1 ∧
      count .trueNegative .trueNegative = some 2 ∧ count .trueNegative .wrongMerge = some 0 := by
  decide

end Metrics
end MergeTrial
