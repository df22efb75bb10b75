import MergeTrial.Proofs.Metrics.Policy
import MergeTrial.Proofs.Metrics.Restriction

/-! Reports on shards. Where two lists of classifications are about the same strategies and share no
scenario, the report on both together is the sum of their reports: tallies add up, sets of scenarios
unite, and gaps are merged. -/

namespace MergeTrial

namespace NameSet

theorem ofList?_append (xs ys : List String) :
    ofList? (xs ++ ys) = Option.merge union (ofList? xs) (ofList? ys) := by
  cases xs with
  | nil => cases ys <;> rfl
  | cons x xs =>
    cases ys with
    | nil => rw [List.append_nil]; rfl
    | cons y ys =>
      refine congrArg some (ext fun name => ?_)
      simp only [mem_ofList, mem_union, List.mem_append]

end NameSet

namespace NameMap
variable {α : Type}

def merge (f : α → α → α) (m n : NameMap α) : NameMap α :=
  n.toList.foldl (fun m entry => m.alter entry.1 fun value =>
    (value.map fun own => f own entry.2).getD entry.2) m

theorem get?_foldl_merge (f : α → α → α) {entries : List (String × α)}
    (h : (entries.map Prod.fst).Nodup) (m : NameMap α) (name : String) :
    (entries.foldl (fun m entry => m.alter entry.1 fun value =>
        (value.map fun own => f own entry.2).getD entry.2) m).get? name =
      Option.merge f (m.get? name) (find name entries) := by
  induction entries generalizing m with
  | nil =>
    rw [List.foldl_nil, find]
    cases m.get? name <;> rfl
  | cons entry rest ih =>
    obtain ⟨hentry, hrest⟩ := List.nodup_cons.1 h
    rw [List.foldl_cons, ih hrest, get?_alter, find]
    by_cases hname : entry.1 = name
    · have hnone : find name rest = none := find_eq_none_iff.2 (hname ▸ hentry)
      rw [hnone, if_pos hname.symm, if_pos hname, hname]
      cases m.get? name <;> rfl
    · rw [if_neg (Ne.symm hname), if_neg hname]

@[simp] theorem get?_merge (f : α → α → α) (m n : NameMap α) (name : String) :
    (merge f m n).get? name = Option.merge f (m.get? name) (n.get? name) :=
  get?_foldl_merge f n.nodup_keys m name

theorem nonempty?_eq_some_iff {m : NameMap α} :
    m.nonempty? = some m ↔ ∃ name, m.get? name ≠ none := by
  simp only [get?_ne_none_iff, ← List.isEmpty_eq_false_iff_exists_mem, keys, List.isEmpty_map]
  rw [nonempty?]
  cases m.toList.isEmpty <;> simp

theorem NoEmptyRows.merge {s t : NameMap (NameMap α)} (hs : s.NoEmptyRows) (ht : t.NoEmptyRows)
    (f : α → α → α) : (NameMap.merge (NameMap.merge f) s t).NoEmptyRows := by
  intro a row hrow
  rw [get?_merge] at hrow
  cases hown : s.get? a with
  | none =>
    rw [hown] at hrow
    exact ht a row (by simpa using hrow)
  | some own =>
    obtain ⟨b, hb⟩ := nonempty?_eq_some_iff.1 (hs a own hown)
    refine nonempty?_eq_some_iff.2 ⟨b, ?_⟩
    rw [hown] at hrow
    cases hother : t.get? a with
    | none =>
      rw [hother] at hrow
      obtain rfl := Option.some.inj hrow
      exact hb
    | some other =>
      rw [hother] at hrow
      obtain rfl := Option.some.inj hrow
      rw [get?_merge]
      obtain ⟨x, hx⟩ := Option.ne_none_iff_exists'.1 hb
      rw [hx]
      cases other.get? b <;> exact Option.some_ne_none _

end NameMap

namespace Gap

theorem mergeSort_append (as bs : List Gap) :
    (as ++ bs).mergeSort le = (as.mergeSort le).merge (bs.mergeSort le) le := by
  have hmerged : ((as.mergeSort le).merge (bs.mergeSort le) le).Pairwise
      fun a b => a.le b = true :=
    @List.pairwise_merge _ le (fun _ _ _ => le_trans)
      (fun a b => Bool.or_eq_true_iff.2 (le_total a b)) _ _ (pairwise_mergeSort as)
      (pairwise_mergeSort bs)
  have hperm : ((as ++ bs).mergeSort le).Perm ((as.mergeSort le).merge (bs.mergeSort le) le) :=
    calc ((as ++ bs).mergeSort le).Perm (as ++ bs) := List.mergeSort_perm ..
      List.Perm _ (as.mergeSort le ++ bs.mergeSort le) :=
        ((List.mergeSort_perm as le).append (List.mergeSort_perm bs le)).symm
      List.Perm _ _ := (List.merge_perm_append le).symm
  exact hperm.eq_of_pairwise (fun _ _ _ _ => le_antisymm) (pairwise_mergeSort _) hmerged

end Gap

def ByVerdict.zipWith {α : Type} (f : α → α → α) (s t : ByVerdict α) : ByVerdict α where
  truePositive := f s.truePositive t.truePositive
  trueNegative := f s.trueNegative t.trueNegative
  falsePositive := f s.falsePositive t.falsePositive
  falseNegative := f s.falseNegative t.falseNegative
  wrongMerge := f s.wrongMerge t.wrongMerge
  error := f s.error t.error

@[simp] theorem ByVerdict.get_zipWith {α : Type} (f : α → α → α) (s t : ByVerdict α) (v : Verdict) :
    (zipWith f s t).get v = f (s.get v) (t.get v) := by cases v <;> rfl

def ByMetric.zipWith {α : Type} (f : α → α → α) (s t : ByMetric α) : ByMetric α where
  truePositive := f s.truePositive t.truePositive
  trueNegative := f s.trueNegative t.trueNegative
  falsePositive := f s.falsePositive t.falsePositive
  falseNegative := f s.falseNegative t.falseNegative

@[simp] theorem ByMetric.get_zipWith {α : Type} (f : α → α → α) (s t : ByMetric α)
    (metric : Metric) : (zipWith f s t).get metric = f (s.get metric) (t.get metric) := by
  cases metric <;> rfl

namespace Confusion

def add (m n : Confusion) : Confusion where
  counts := m.counts.zipWith (· + ·) n.counts
  skipped := m.skipped + n.skipped
  names := m.names.zipWith (Option.merge NameSet.union) n.names

@[simp] theorem count_add (m n : Confusion) (v : Verdict) :
    (m.add n).count v = m.count v + n.count v := ByVerdict.get_zipWith ..

@[simp] theorem names_add (m n : Confusion) (v : Verdict) :
    (m.add n).names.get v = Option.merge NameSet.union (m.names.get v) (n.names.get v) :=
  ByVerdict.get_zipWith ..

theorem ofList_append (as bs : List Classification) :
    ofList (as ++ bs) = (ofList as).add (ofList bs) := by
  refine ext (fun v => ?_) ?_ fun v => ?_
  · rw [count_add, count_ofList, count_ofList, count_ofList, List.filter_append,
      List.length_append]
  · rw [add, skipped_ofList, skipped_ofList, skipped_ofList, List.filter_append,
      List.length_append]
  · rw [names_add, names_ofList, names_ofList, names_ofList, List.filter_append, List.map_append,
      NameSet.ofList?_append]

end Confusion

namespace Additional

def add (x y : Additional) : Additional where
  counts := x.counts.zipWith (· + ·) y.counts
  names := x.names.zipWith (Option.merge NameSet.union) y.names

@[simp] theorem count_add (x y : Additional) (metric : Metric) :
    (x.add y).count metric = x.count metric + y.count metric := ByMetric.get_zipWith ..

@[simp] theorem names_add (x y : Additional) (metric : Metric) : (x.add y).names.get metric =
    Option.merge NameSet.union (x.names.get metric) (y.names.get metric) :=
  ByMetric.get_zipWith ..

theorem against_eq_add {a b a₁ b₁ a₂ b₂ : Verdicts}
    (hdisjoint : ∀ metric, (counted a₁ b₁ metric).Disjoint (counted a₂ b₂ metric))
    (hcounted : ∀ metric scenario, scenario ∈ counted a b metric ↔
      scenario ∈ counted a₁ b₁ metric ∨ scenario ∈ counted a₂ b₂ metric) :
    against a b = (against a₁ b₁).add (against a₂ b₂) := by
  have hmem : ∀ metric scenario, scenario ∈ counted a b metric ↔
      scenario ∈ counted a₁ b₁ metric ++ counted a₂ b₂ metric :=
    fun metric scenario => (hcounted metric scenario).trans List.mem_append.symm
  refine ext (fun metric => ?_) fun metric => ?_
  · have hnodup := (nodup_counted a₁ b₁ metric).append (nodup_counted a₂ b₂ metric)
      (hdisjoint metric)
    have hperm := (List.perm_ext_iff_of_nodup (nodup_counted a b metric) hnodup).2 (hmem metric)
    rw [count_add, count_against, count_against, count_against, hperm.length_eq,
      List.length_append]
  · rw [names_add, names_against, names_against, names_against, ← NameSet.ofList?_append]
    exact NameSet.ofList?_congr (hmem metric)

end Additional

namespace Metrics
variable {as bs : List Classification} {scenario : String}

theorem get?_verdictsOf_append (strategy scenario : String) (as bs : List Classification) :
    (verdictsOf strategy (as ++ bs)).get? scenario =
      ((verdictsOf strategy bs).get? scenario).or ((verdictsOf strategy as).get? scenario) := by
  rw [verdictsOf, Classification.ofStrategy, List.filter_append, List.map_append]
  exact NameMap.get?_ofList_append ..

theorem get?_verdictsOf_eq_none (strategy : String) {cs : List Classification}
    (h : scenario ∉ cs.map (·.scenario)) : (verdictsOf strategy cs).get? scenario = none := by
  rw [Option.eq_none_iff_forall_ne_some]
  intro v hv
  obtain ⟨c, hc, hentry⟩ := List.mem_map.1 (NameMap.mem_ofList (NameMap.get?_eq_some_iff.1 hv))
  obtain ⟨rfl, -⟩ := Prod.mk.inj hentry
  exact h (List.mem_map_of_mem (List.mem_of_mem_filter hc))

section
variable (hscenarios : (as.map (·.scenario)).Disjoint (bs.map (·.scenario)))
include hscenarios

theorem mem_counted_append (a b : String) (metric : Metric) (scenario : String) :
    scenario ∈ Additional.counted (verdictsOf a (as ++ bs)) (verdictsOf b (as ++ bs)) metric ↔
      scenario ∈ Additional.counted (verdictsOf a as) (verdictsOf b as) metric ∨
        scenario ∈ Additional.counted (verdictsOf a bs) (verdictsOf b bs) metric := by
  simp only [Additional.mem_counted, get?_verdictsOf_append]
  by_cases hbs : scenario ∈ bs.map (·.scenario)
  · have has : scenario ∉ as.map (·.scenario) := fun h => hscenarios h hbs
    simp [get?_verdictsOf_eq_none _ has]
  · simp [get?_verdictsOf_eq_none _ hbs]

theorem disjoint_counted (a b : String) (metric : Metric) :
    (Additional.counted (verdictsOf a as) (verdictsOf b as) metric).Disjoint
      (Additional.counted (verdictsOf a bs) (verdictsOf b bs) metric) := by
  have hmem : ∀ {cs scenario}, scenario ∈ Additional.counted (verdictsOf a cs) (verdictsOf b cs)
      metric → scenario ∈ cs.map (·.scenario) := by
    intro cs scenario h
    by_contra hnot
    exact nomatch (get?_verdictsOf_eq_none a hnot).symm.trans (Additional.mem_counted.1 h).1
  exact fun scenario has hbs => hscenarios (hmem has) (hmem hbs)

end

def add (m n : Metrics) : Metrics where
  matrices := m.matrices.merge Confusion.add n.matrices
  pairwise := m.pairwise.merge (NameMap.merge Additional.add) n.pairwise
  gaps := m.gaps.merge n.gaps Gap.le
  total := m.total + n.total

theorem additional?_add (m n : Metrics) (a b : String) :
    (m.add n).additional? a b = Option.merge Additional.add (m.additional? a b)
      (n.additional? a b) := by
  rw [additional?, additional?, additional?, add, NameMap.get?_merge]
  cases m.pairwise.get? a with
  | none => cases n.pairwise.get? a <;> simp
  | some row =>
    cases n.pairwise.get? a with
    | none => simp
    | some other => exact NameMap.get?_merge ..

theorem matrices_append (as bs : List Classification) : (compute (as ++ bs)).matrices =
    (compute as).matrices.merge Confusion.add (compute bs).matrices := by
  ext1 strategy
  have happend : Classification.ofStrategy strategy (as ++ bs) =
      Classification.ofStrategy strategy as ++ Classification.ofStrategy strategy bs :=
    List.filter_append ..
  rw [NameMap.get?_merge, compute, compute, compute, Tally.get?_matrices, Tally.get?_matrices,
    Tally.get?_matrices, happend]
  cases has : Classification.ofStrategy strategy as with
  | nil => cases Classification.ofStrategy strategy bs <;> rfl
  | cons a own =>
    cases hbs : Classification.ofStrategy strategy bs with
    | nil => rw [List.append_nil]; rfl
    | cons b other => exact congrArg some (Confusion.ofList_append ..)

theorem gaps_append (as bs : List Classification) :
    (compute (as ++ bs)).gaps = (compute as).gaps.merge (compute bs).gaps Gap.le := by
  rw [compute, compute, compute, Tally.gaps_ofList, Tally.gaps_ofList, Tally.gaps_ofList,
    List.filterMap_append, Gap.mergeSort_append]

/-- The report on two shards that share no scenario and are about the same strategies is the sum of
their reports. -/
theorem compute_append (as bs : List Classification)
    (hscenarios : ∀ a ∈ as, ∀ b ∈ bs, a.scenario ≠ b.scenario)
    (hstrategies : ∀ strategy,
      (∃ a ∈ as, a.strategy = strategy) ↔ ∃ b ∈ bs, b.strategy = strategy) :
    compute (as ++ bs) = (compute as).add (compute bs) := by
  have hdisjoint : (as.map (·.scenario)).Disjoint (bs.map (·.scenario)) := by
    intro scenario has hbs
    obtain ⟨a, ha, rfl⟩ := List.mem_map.1 has
    obtain ⟨b, hb, heq⟩ := List.mem_map.1 hbs
    exact hscenarios a ha b hb heq.symm
  have hadditional : ∀ a b, (compute (as ++ bs)).additional? a b =
      ((compute as).add (compute bs)).additional? a b := by
    intro a b
    rw [additional?_add, additional?_compute, additional?_compute, additional?_compute]
    simp only [List.map_append, List.mem_append, List.mem_map, hstrategies, or_self]
    split
    · exact congrArg some (Additional.against_eq_add (disjoint_counted hdisjoint a b)
        (mem_counted_append hdisjoint a b))
    · rfl
  have hpairwise : (compute (as ++ bs)).pairwise = ((compute as).add (compute bs)).pairwise :=
    (noEmptyRows_compute _).ext ((noEmptyRows_compute as).merge (noEmptyRows_compute bs) _)
      hadditional
  exact Metrics.mk.injEq .. ▸ ⟨matrices_append as bs, hpairwise, gaps_append as bs,
    List.length_append⟩

def firstShard : List Classification :=
  [.make .separate "S" "x" .conflict .conflicts .differs,
    .make .separate "S" "x" .conflict .success .differs,
    .make .separate "T" "y" .success .skipped .notComparable]

def secondShard : List Classification :=
  [.make .separate "U" "y" .conflict .conflicts .differs,
    .make .separate "R" "y" .success .failed .notComparable,
    .make .separate "U" "x" .conflict .success .differs]

theorem compute_shards_append :
    (∀ a ∈ firstShard, ∀ b ∈ secondShard, a.scenario ≠ b.scenario) ∧
    (∀ strategy, (∃ a ∈ firstShard, a.strategy = strategy) ↔
      ∃ b ∈ secondShard, b.strategy = strategy) ∧
    compute (firstShard ++ secondShard) = (compute firstShard).add (compute secondShard) ∧
    ((compute (firstShard ++ secondShard)).additional? "x" "y").map (·.count .falseNegative) =
      some 2 := by
  have hscenarios : ∀ a ∈ firstShard, ∀ b ∈ secondShard, a.scenario ≠ b.scenario := by decide
  have hstrategies : ∀ strategy, (∃ a ∈ firstShard, a.strategy = strategy) ↔
      ∃ b ∈ secondShard, b.strategy = strategy := by
    intro strategy
    simp only [firstShard, secondShard, Classification.make, List.exists_mem_cons_iff,
      List.not_mem_nil, false_and, exists_false]
    tauto
  have happend := compute_append firstShard secondShard hscenarios hstrategies
  exact ⟨hscenarios, hstrategies, happend, happend ▸ by decide⟩

/-- Strategies that occur in one shard only are compared with each other in the whole alone. -/
example :
    let as : List Classification := [.make .separate "S" "x" .success .success .agrees]
    let bs : List Classification := [.make .separate "T" "y" .success .success .agrees]
    compute (as ++ bs) ≠ (compute as).add (compute bs) := by decide

end Metrics
end MergeTrial
