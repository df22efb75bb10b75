import Mathlib.Algebra.BigOperators.Group.List.Basic
import Mathlib.Algebra.Order.Field.Basic
import Mathlib.Data.Rat.Cast.Order
import Mathlib.Tactic.Positivity
import MergeTrial.Proofs.Metrics.Pairwise
import MergeTrial.Proofs.Metrics.Permutation

/-! Every classification is counted exactly once: in the matrix of its strategy, there under a
verdict that its label allows, and among the gaps if no merge came of it. All that is taken for
granted is that each verdict was judged by some policy, not that all of them were by the same. -/

namespace MergeTrial

theorem sum_length_filter {α κ : Type} [DecidableEq κ] (key : α → κ) (xs : List α) {ks : List κ}
    (hks : ks.Nodup) : (ks.map fun k => (xs.filter fun x => key x = k).length).sum =
      (xs.filter fun x => key x ∈ ks).length := by
  induction ks with
  | nil => simp
  | cons k rest ih =>
    obtain ⟨hk, hrest⟩ := List.nodup_cons.1 hks
    have hsplit := List.countP_eq_countP_filter_add xs (fun x => decide (key x ∈ k :: rest))
      fun x => key x = k
    rw [List.countP_filter, List.countP_filter] at hsplit
    rw [List.map_cons, List.sum_cons, ih hrest]
    simp only [← List.countP_eq_length_filter]
    rw [hsplit]
    refine congrArg₂ (· + ·) (List.countP_congr fun x _ => ?_) (List.countP_congr fun x _ => ?_)
    · simp +contextual
    · by_cases hx : key x = k
      · simp [hx, hk]
      · simp [hx]

namespace Verdict

def ofLabel : Label → List Verdict
  | .conflict => [.truePositive, .falseNegative]
  | .success => [.trueNegative, .falsePositive, .wrongMerge]

theorem nodup_ofLabel (label : Label) : (ofLabel label).Nodup := by cases label <;> decide

theorem judge_mem_ofLabel_iff (policy : Policy) (expected label : Label) (status : Status)
    (comparison : Comparison) : judge policy expected status comparison ∈ ofLabel label ↔
      status.completed = true ∧ expected = label := by
  cases policy <;> cases expected <;> cases status <;> cases comparison <;> cases label <;> decide

end Verdict

namespace Classification

def IsMade (c : Classification) : Prop :=
  ∃ policy, c = make policy c.scenario c.strategy c.expected c.status c.comparison

variable {c : Classification}

theorem isMade_make (policy : Policy) (scenario strategy : String) (expected : Label)
    (status : Status) (comparison : Comparison) :
    (make policy scenario strategy expected status comparison).IsMade :=
  ⟨policy, rfl⟩

theorem IsMade.exists_judge (h : c.IsMade) :
    ∃ policy, c.verdict = .judge policy c.expected c.status c.comparison :=
  h.imp fun _ h => congrArg verdict h

theorem IsMade.error_iff (h : c.IsMade) : c.verdict = .error ↔ c.status.completed = false := by
  obtain ⟨policy, h⟩ := h.exists_judge
  rw [h]
  exact Verdict.judge_eq_error_iff ..

theorem IsMade.mem_ofLabel_iff (h : c.IsMade) (label : Label) :
    c.verdict ∈ Verdict.ofLabel label ↔ c.status.completed = true ∧ c.expected = label := by
  obtain ⟨policy, h⟩ := h.exists_judge
  rw [h]
  exact Verdict.judge_mem_ofLabel_iff ..

end Classification

namespace Share

def value (s : Share) : ℚ := s.part / s.whole

structure IsRate (share? : Option Share) (part whole : Nat) : Prop where
  undefined : share? = none ↔ whole = 0
  exact : ∀ s, share? = some s → s.value = part / whole
  nonneg : ∀ s, share? = some s → 0 ≤ s.value
  le_one : ∀ s, share? = some s → s.value ≤ 1

theorem isRate_of? {part whole : Nat} (h : part ≤ whole) : IsRate (of? part whole) part whole := by
  have hexact : ∀ s, of? part whole = some s → s.value = part / whole := by
    intro s hs
    unfold of? at hs
    split at hs
    · obtain rfl := Option.some.inj hs
      rfl
    · exact absurd hs.symm (Option.some_ne_none s)
  refine ⟨of?_eq_none_iff, hexact, fun s hs => ?_, fun s hs => ?_⟩
  · rw [hexact s hs]
    positivity
  · rw [hexact s hs]
    exact div_le_one_of_le₀ (Nat.cast_le.2 h) (Nat.cast_nonneg whole)

end Share

namespace Confusion

theorem sum_count_ofList (cs : List Classification) {vs : List Verdict} (hvs : vs.Nodup) :
    (vs.map (ofList cs).count).sum = (cs.filter fun c => c.verdict ∈ vs).length := by
  rw [← sum_length_filter Classification.verdict cs hvs]
  exact congrArg List.sum (List.map_congr_left fun v _ => count_ofList cs v)

theorem total_eq_sum (m : Confusion) : m.total = (Verdict.all.map m.count).sum := by
  simp only [total, Verdict.all, List.foldl_cons, List.foldl_nil, List.map_cons, List.map_nil,
    List.sum_cons, List.sum_nil]
  omega

theorem total_ofList (cs : List Classification) : (ofList cs).total = cs.length := by
  have hall : (cs.filter fun c => c.verdict ∈ Verdict.all) = cs :=
    List.filter_eq_self.2 fun c _ => decide_eq_true (Verdict.mem_all c.verdict)
  rw [total_eq_sum, sum_count_ofList cs (by decide), hall]

theorem skipped_ofList (cs : List Classification) :
    (ofList cs).skipped = (cs.filter fun c => c.status = .skipped).length := by
  have hstep : ∀ (m : Confusion) (c : Classification), (m.record c).skipped =
      if decide (c.status = .skipped) then m.skipped + 1 else m.skipped := by
    intro m c
    simp only [record, decide_eq_true_eq]
  have hcount := count_foldl (·.skipped) hstep cs empty
  rwa [show empty.skipped = 0 from rfl, Nat.zero_add] at hcount

structure Accounts (m : Confusion) (own : List Classification) : Prop where
  total : m.total = own.length
  conflict : m.count .truePositive + m.count .falseNegative =
    (own.filter fun c => c.status.completed ∧ c.expected = .conflict).length
  clean : m.count .trueNegative + m.count .falsePositive + m.count .wrongMerge =
    (own.filter fun c => c.status.completed ∧ c.expected = .success).length
  error : m.count .error = (own.filter fun c => !c.status.completed).length
  skipped : m.skipped = (own.filter fun c => c.status = .skipped).length
  skipped_le : m.skipped ≤ m.count .error

variable {own : List Classification}

theorem sum_count_ofLabel (hown : ∀ c ∈ own, c.IsMade) (label : Label) :
    ((Verdict.ofLabel label).map (ofList own).count).sum =
      (own.filter fun c => c.status.completed ∧ c.expected = label).length := by
  rw [sum_count_ofList own (Verdict.nodup_ofLabel label)]
  refine congrArg List.length (List.filter_congr fun c hc => ?_)
  exact decide_eq_decide.2 ((hown c hc).mem_ofLabel_iff label)

theorem count_error (hown : ∀ c ∈ own, c.IsMade) :
    (ofList own).count .error = (own.filter fun c => !c.status.completed).length := by
  rw [count_ofList]
  refine congrArg List.length (List.filter_congr fun c hc => ?_)
  rw [Bool.eq_iff_iff, decide_eq_true_eq, Bool.not_eq_true', (hown c hc).error_iff]

theorem accounts_ofList (hown : ∀ c ∈ own, c.IsMade) : Accounts (ofList own) own where
  total := total_ofList own
  conflict := sum_count_ofLabel hown .conflict
  clean := (Nat.add_assoc ..).trans (sum_count_ofLabel hown .success)
  error := count_error hown
  skipped := skipped_ofList own
  skipped_le := by
    rw [skipped_ofList, count_error hown, ← List.countP_eq_length_filter,
      ← List.countP_eq_length_filter]
    refine List.countP_mono_left fun c _ hskipped => ?_
    rw [of_decide_eq_true hskipped]
    rfl

theorem count_le_total (m : Confusion) (v : Verdict) : m.count v ≤ m.total := by
  rw [total_eq_sum]
  exact List.le_sum_of_mem (List.mem_map_of_mem (Verdict.mem_all v))

structure HasRates (m : Confusion) : Prop where
  precisionRate : Share.IsRate m.precisionRate? (m.count .truePositive)
    (m.count .truePositive + m.count .falsePositive)
  recallRate : Share.IsRate m.recallRate? (m.count .truePositive)
    (m.count .truePositive + m.count .falseNegative)
  coverageGap : Share.IsRate m.coverageGap? (m.count .error) m.total

theorem hasRates (m : Confusion) : HasRates m where
  precisionRate := Share.isRate_of? (Nat.le_add_right ..)
  recallRate := Share.isRate_of? (Nat.le_add_right ..)
  coverageGap := Share.isRate_of? (count_le_total m .error)

end Confusion

/-- By strategy, then by scenario, and a failed run before a skipped one. -/
def Gap.Precedes (a b : Gap) : Prop :=
  a.strategy < b.strategy ∨ a.strategy = b.strategy ∧ (a.scenario < b.scenario ∨
    a.scenario = b.scenario ∧ (a.status = b.status ∨ a.status = .failed ∧ b.status = .skipped))

namespace Metrics
variable {cs : List Classification}

theorem mem_keys_matrices {strategy : String} :
    strategy ∈ (compute cs).matrices.keys ↔ strategy ∈ cs.map (·.strategy) := by
  rw [← NameMap.get?_ne_none_iff, compute, Tally.get?_matrices]
  split
  · next hempty => exact iff_of_false (fun h => h rfl) (isEmpty_ofStrategy.1 hempty)
  · next hown =>
    rw [isEmpty_ofStrategy, not_not] at hown
    exact iff_of_true (Option.some_ne_none _) hown

theorem eq_matrixOf {strategy : String} {m : Confusion}
    (h : (compute cs).matrices.get? strategy = some m) : m = matrixOf strategy cs := by
  have hmem : strategy ∈ cs.map (·.strategy) :=
    mem_keys_matrices.1 (NameMap.get?_ne_none_iff.1 (h ▸ Option.some_ne_none m))
  exact Option.some.inj (h.symm.trans (get?_matrices_compute hmem))

theorem sum_totals (cs : List Classification) :
    ((compute cs).matrices.toList.map fun entry => entry.2.total).sum = cs.length := by
  have htotals : ((compute cs).matrices.toList.map fun entry => entry.2.total) =
      (compute cs).matrices.keys.map fun strategy =>
        (cs.filter fun c => c.strategy = strategy).length := by
    rw [NameMap.keys, List.map_map]
    refine List.map_congr_left fun entry hentry => ?_
    rw [eq_matrixOf (NameMap.get?_eq_some_iff.2 hentry)]
    exact Confusion.total_ofList _
  have hall : (cs.filter fun c => c.strategy ∈ (compute cs).matrices.keys) = cs :=
    List.filter_eq_self.2 fun c hc => decide_eq_true (mem_keys_matrices.2 (List.mem_map_of_mem hc))
  rw [htotals, sum_length_filter Classification.strategy cs (NameMap.nodup_keys _), hall]

/-- The run of a classification without a merge. -/
def gapOf (c : Classification) : Gap := ⟨c.strategy, c.scenario, c.status⟩

theorem filterMap_gap? (hcs : ∀ c ∈ cs, c.IsMade) :
    cs.filterMap gap? = (cs.filter fun c => !c.status.completed).map gapOf := by
  rw [← List.filterMap_eq_map, List.filterMap_filter]
  refine List.filterMap_congr fun c hc => ?_
  simp only [gap?, (hcs c hc).error_iff, Bool.not_eq_true', Function.comp_apply, gapOf]

theorem gaps_perm_failed (hcs : ∀ c ∈ cs, c.IsMade) :
    (compute cs).gaps.Perm ((cs.filter fun c => !c.status.completed).map gapOf) := by
  rw [← filterMap_gap? hcs, ← Tally.gaps_ofList]
  exact List.mergeSort_perm ..

theorem precedes_of_mem (hcs : ∀ c ∈ cs, c.IsMade) {a b : Gap} (ha : a ∈ (compute cs).gaps)
    (hb : b ∈ (compute cs).gaps) (hle : a.le b = true) : a.Precedes b := by
  have hfailed : ∀ status : Status, (!status.completed) = true →
      status = .failed ∨ status = .skipped := fun status => by cases status <;> decide
  have hstatus : ∀ gap ∈ (compute cs).gaps, gap.status = .failed ∨ gap.status = .skipped := by
    intro gap hgap
    obtain ⟨c, hc, rfl⟩ := List.mem_map.1 ((gaps_perm_failed hcs).mem_iff.1 hgap)
    exact hfailed _ (List.mem_filter.1 hc).2
  refine (Gap.le_iff.1 hle).imp_right (And.imp_right (Or.imp_right (And.imp_right fun hrank => ?_)))
  rcases hstatus a ha with ha | ha <;> rcases hstatus b hb with hb | hb <;> rw [ha, hb] at hrank ⊢
  · exact Or.inl rfl
  · exact Or.inr ⟨rfl, rfl⟩
  · exact absurd hrank (by decide)
  · exact Or.inl rfl

/-- The report on classifications that were made by any policies accounts for each of them once. -/
theorem compute_accounts (cs : List Classification) (hcs : ∀ c ∈ cs, c.IsMade) :
    let r := compute cs
    (∀ strategy, strategy ∈ r.matrices.keys ↔ ∃ c ∈ cs, c.strategy = strategy) ∧
    r.total = cs.length ∧ (r.matrices.toList.map fun entry => entry.2.total).sum = r.total ∧
    (∀ strategy m, r.matrices.get? strategy = some m →
      m.Accounts (Classification.ofStrategy strategy cs) ∧ m.HasRates) ∧
    r.gaps.Pairwise Gap.Precedes ∧
    r.gaps.Perm ((cs.filter fun c => !c.status.completed).map gapOf) := by
  refine ⟨fun strategy => mem_keys_matrices.trans List.mem_map, rfl, sum_totals cs, ?_, ?_, ?_⟩
  · intro strategy m hm
    rw [eq_matrixOf hm]
    refine ⟨Confusion.accounts_ofList fun c hc => ?_, Confusion.hasRates _⟩
    exact hcs c (List.mem_of_mem_filter hc)
  · exact (Gap.pairwise_mergeSort _).imp_of_mem (precedes_of_mem hcs)
  · exact gaps_perm_failed hcs

def mixedPolicies : List Classification :=
  [.make .separate "S" "x" .conflict .conflicts .notComparable,
    .make .separate "S" "y" .conflict .success .differs,
    .make .separate "T" "x" .success .success .differs,
    .make .falsePositive "T" "x" .success .success .differs,
    .make .trueNegative "T" "y" .success .success .differs,
    .make .separate "U" "y" .success .skipped .notComparable,
    .make .separate "U" "y" .success .skipped .notComparable,
    .make .separate "U" "x" .conflict .failed .notComparable]

theorem compute_mixedPolicies_accounts : (∀ c ∈ mixedPolicies, c.IsMade) ∧
    ((compute mixedPolicies).matrices.toList.map fun entry => entry.2.total).sum = 8 ∧
    (compute mixedPolicies).gaps.length = 3 ∧
    ∀ m, (compute mixedPolicies).matrices.get? "x" = some m → m.count .error = 1 := by
  have hmade : ∀ c ∈ mixedPolicies, c.IsMade := by
    simp only [mixedPolicies, List.forall_mem_cons]
    simp [Classification.isMade_make]
  obtain ⟨-, htotal, hsum, hmatrices, -, hgaps⟩ := compute_accounts mixedPolicies hmade
  exact ⟨hmade, hsum.trans htotal, hgaps.length_eq, fun m hm => (hmatrices "x" m hm).1.error⟩

end Metrics
end MergeTrial
