import Mathlib.Data.Finset.Card
import MergeTrial.Proofs.Metrics.Tally

/-! The comparisons of a report agree with its matrices. If each strategy was classified at most
once on each scenario, then what one strategy adds to another is a difference of scenario sets. -/

namespace MergeTrial

namespace NameSet

theorem card_toFinset (s : NameSet) : s.toList.toFinset.card = s.size :=
  List.toFinset_card_of_nodup s.nodup_toList

theorem toFinset_diff (s t : NameSet) :
    (s.diff t).toList.toFinset = s.toList.toFinset \ t.toList.toFinset := by
  ext x
  simp only [List.mem_toFinset, Finset.mem_sdiff, mem_toList, mem_diff]

theorem size_diff_add (s t : NameSet) : (s.diff t).size + t.size = (t.diff s).size + s.size := by
  simp only [← card_toFinset, toFinset_diff]
  rw [Finset.card_sdiff_add_card, Finset.card_sdiff_add_card, Finset.union_comm]

theorem size_diff_le (s t u : NameSet) : (s.diff u).size ≤ (s.diff t).size + (t.diff u).size := by
  simp only [← card_toFinset, toFinset_diff]
  refine (Finset.card_le_card ?_).trans (Finset.card_union_le _ _)
  intro x hx
  obtain ⟨hs, hu⟩ := Finset.mem_sdiff.1 hx
  by_cases ht : x ∈ t.toList.toFinset
  · exact Finset.mem_union_right _ (Finset.mem_sdiff.2 ⟨ht, hu⟩)
  · exact Finset.mem_union_left _ (Finset.mem_sdiff.2 ⟨hs, ht⟩)

end NameSet

namespace Additional

theorem ofVerdict?_eq_some_iff {v : Verdict} {metric : Metric} :
    Metric.ofVerdict? v = some metric ↔ v = metric.verdict := by
  cases v <;> cases metric <;> decide

def counts? (b : Verdicts) (metric : Metric) (entry : String × Verdict) : Bool :=
  entry.2 = metric.verdict ∧ b.get? entry.1 ≠ some entry.2

theorem compare_spec (b : Verdicts) (metric : Metric) (x : Additional) (entry : String × Verdict) :
    ((compare b x entry).count metric =
        if counts? b metric entry then x.count metric + 1 else x.count metric) ∧
      (compare b x entry).names.get metric =
        if counts? b metric entry then some (((x.names.get metric).getD ∅).insert entry.1)
        else x.names.get metric := by
  cases hcounts : counts? b metric entry with
  | true =>
    obtain ⟨hverdict, hshared⟩ := of_decide_eq_true hcounts
    rw [compare, if_neg hshared, ofVerdict?_eq_some_iff.2 hverdict]
    simp only [count, record, ByMetric.get_modify, if_true, and_self]
  | false =>
    unfold compare
    split
    · exact ⟨rfl, rfl⟩
    · next hshared =>
      split
      · exact ⟨rfl, rfl⟩
      · next other hother =>
        have hne : metric ≠ other := by
          intro heq
          exact of_decide_eq_false hcounts ⟨ofVerdict?_eq_some_iff.1 (heq ▸ hother), hshared⟩
        simp [count, record, hne]

def counted (a b : Verdicts) (metric : Metric) : List String :=
  (a.toList.filter (counts? b metric)).map Prod.fst

theorem count_against (a b : Verdicts) (metric : Metric) :
    (against a b).count metric = (counted a b metric).length := by
  have hcount := count_foldl (·.count metric) (fun x entry => (compare_spec b metric x entry).1)
    a.toList empty
  rwa [count_empty, Nat.zero_add, ← List.length_map Prod.fst] at hcount

theorem names_against (a b : Verdicts) (metric : Metric) :
    (against a b).names.get metric = NameSet.ofList? (counted a b metric) :=
  names_foldl (·.names.get metric) (fun x entry => (compare_spec b metric x entry).2) a.toList
    empty (names_empty metric)

theorem nodup_counted (a b : Verdicts) (metric : Metric) : (counted a b metric).Nodup :=
  a.nodup_keys.sublist (List.filter_sublist.map Prod.fst)

theorem mem_counted {a b : Verdicts} {metric : Metric} {scenario : String} :
    scenario ∈ counted a b metric ↔
      a.get? scenario = some metric.verdict ∧ b.get? scenario ≠ some metric.verdict := by
  simp only [counted, List.mem_map, List.mem_filter, counts?, decide_eq_true_eq]
  constructor
  · rintro ⟨⟨name, verdict⟩, ⟨hmem, rfl, hshared⟩, rfl⟩
    exact ⟨NameMap.get?_eq_some_iff.2 hmem, hshared⟩
  · rintro ⟨hown, hshared⟩
    exact ⟨(scenario, metric.verdict), ⟨NameMap.get?_eq_some_iff.1 hown, rfl, hshared⟩, rfl⟩

end Additional

namespace Metrics

def look (pairs : NameMap (NameMap Additional)) (a b : String) : Option Additional :=
  (pairs.get? a).bind (·.get? b)

theorem look_addPair (a b : String × Verdicts) (pairs : NameMap (NameMap Additional))
    (x y : String) : look (addPair a pairs b) x y =
      if x = a.1 ∧ y = b.1 ∧ x ≠ y then some (.against a.2 b.2) else look pairs x y := by
  unfold addPair
  by_cases hsame : a.1 = b.1
  · rw [if_pos hsame, if_neg]
    rintro ⟨hx, hy, hne⟩
    exact hne (hx.trans (hsame.trans hy.symm))
  · rw [if_neg hsame, look, NameMap.get?_alter]
    by_cases hx : x = a.1
    · rw [if_pos hx, Option.bind_some, NameMap.get?_insert]
      by_cases hy : y = b.1
      · rw [if_pos hy, if_pos ⟨hx, hy, fun h => hsame (hx.symm.trans (h.trans hy))⟩]
      · rw [if_neg hy, if_neg fun h => hy h.2.1, look, hx]
        cases pairs.get? a.1 <;> rfl
    · rw [if_neg hx, if_neg fun h => hx h.1, look]

theorem look_foldl_addPair (a : String × Verdicts) {entries : List (String × Verdicts)}
    (hentries : (entries.map Prod.fst).Nodup) (pairs : NameMap (NameMap Additional))
    (x y : String) : look (entries.foldl (addPair a) pairs) x y =
      (if x = a.1 ∧ x ≠ y then (NameMap.find y entries).map (Additional.against a.2) else none).or
        (look pairs x y) := by
  induction entries generalizing pairs with
  | nil => simp [NameMap.find]
  | cons b rest ih =>
    obtain ⟨hb, hrest⟩ := List.nodup_cons.1 hentries
    rw [List.foldl_cons, ih hrest, look_addPair, NameMap.find]
    by_cases hxy : x = a.1 ∧ x ≠ y
    · by_cases hy : b.1 = y
      · have hnone : NameMap.find y rest = none := NameMap.find_eq_none_iff.2 (hy ▸ hb)
        rw [if_pos hxy, if_pos hxy, hnone, if_pos hy, if_pos ⟨hxy.1, hy.symm, hxy.2⟩]
        rfl
      · rw [if_pos hxy, if_pos hxy, if_neg hy, if_neg fun h => hy h.2.1.symm]
    · rw [if_neg hxy, if_neg hxy, if_neg fun h => hxy ⟨h.1, h.2.2⟩]

theorem look_foldl_foldl {rows entries : List (String × Verdicts)}
    (hrows : (rows.map Prod.fst).Nodup) (hentries : (entries.map Prod.fst).Nodup)
    (pairs : NameMap (NameMap Additional)) (x y : String) :
    look (rows.foldl (fun pairs a => entries.foldl (addPair a) pairs) pairs) x y =
      (if x = y then none else (NameMap.find x rows).bind fun a =>
        (NameMap.find y entries).map (Additional.against a)).or (look pairs x y) := by
  induction rows generalizing pairs with
  | nil => simp [NameMap.find]
  | cons a rest ih =>
    obtain ⟨ha, hrest⟩ := List.nodup_cons.1 hrows
    rw [List.foldl_cons, ih hrest, look_foldl_addPair a hentries, NameMap.find]
    by_cases hxy : x = y
    · rw [if_pos hxy, if_pos hxy, if_neg fun h => h.2 hxy, Option.none_or]
    · rw [if_neg hxy, if_neg hxy]
      by_cases hx : a.1 = x
      · have hnone : NameMap.find x rest = none := NameMap.find_eq_none_iff.2 (hx ▸ ha)
        rw [hnone, if_pos hx, if_pos ⟨hx.symm, hxy⟩]
        rfl
      · rw [if_neg hx, if_neg fun h => hx h.1.symm, Option.none_or]

theorem look_compareAll (verdicts : NameMap Verdicts) (x y : String) :
    look (compareAll verdicts) x y =
      if x = y then none else (verdicts.get? x).bind fun a =>
        (verdicts.get? y).map (Additional.against a) := by
  rw [compareAll, look_foldl_foldl verdicts.nodup_keys verdicts.nodup_keys]
  exact Option.or_none

def verdictsOf (strategy : String) (cs : List Classification) : Verdicts :=
  .ofList ((Classification.ofStrategy strategy cs).map fun c => (c.scenario, c.verdict))

def matrixOf (strategy : String) (cs : List Classification) : Confusion :=
  .ofList (Classification.ofStrategy strategy cs)

variable {cs : List Classification} {a b c : String}

theorem isEmpty_ofStrategy : (Classification.ofStrategy a cs).isEmpty = true ↔
    ¬a ∈ cs.map (·.strategy) := by
  simp only [Classification.ofStrategy, List.isEmpty_iff, List.filter_eq_nil_iff,
    decide_eq_true_eq, List.mem_map, not_exists, not_and]

theorem get?_verdicts (cs : List Classification) (a : String) :
    (Tally.ofList cs).verdicts.get? a =
      if a ∈ cs.map (·.strategy) then some (verdictsOf a cs) else none := by
  simp only [Tally.get?_verdicts, isEmpty_ofStrategy, ite_not, verdictsOf]

theorem get?_matrices_compute (ha : a ∈ cs.map (·.strategy)) :
    (compute cs).matrices.get? a = some (matrixOf a cs) := by
  rw [compute, Tally.get?_matrices, if_neg fun h => isEmpty_ofStrategy.1 h ha]
  rfl

theorem additional?_compute (cs : List Classification) (a b : String) :
    (compute cs).additional? a b =
      if a ≠ b ∧ a ∈ cs.map (·.strategy) ∧ b ∈ cs.map (·.strategy) then
        some (.against (verdictsOf a cs) (verdictsOf b cs))
      else none := by
  have hlook : (compute cs).additional? a b =
      look (compareAll (Tally.ofList cs).verdicts) a b := rfl
  rw [hlook, look_compareAll, get?_verdicts, get?_verdicts]
  by_cases hne : a = b
  · rw [if_pos hne, if_neg fun h => h.1 hne]
  · rw [if_neg hne]
    by_cases ha : a ∈ cs.map (·.strategy)
    · by_cases hb : b ∈ cs.map (·.strategy)
      · rw [if_pos ha, if_pos hb, if_pos ⟨hne, ha, hb⟩]
        rfl
      · rw [if_pos ha, if_neg hb, if_neg fun h => hb h.2.2]
        rfl
    · rw [if_neg ha, Option.bind_none, if_neg fun h => ha h.2.1]

theorem additional?_eq_some_iff {x : Additional} : (compute cs).additional? a b = some x ↔
    (a ≠ b ∧ a ∈ cs.map (·.strategy) ∧ b ∈ cs.map (·.strategy)) ∧
      x = .against (verdictsOf a cs) (verdictsOf b cs) := by
  rw [additional?_compute, Option.ite_none_right_eq_some, Option.some.injEq, eq_comm (a := x)]

section
variable (hcs : (cs.map fun c => (c.scenario, c.strategy)).Nodup)
include hcs

theorem nodup_ofStrategy (a : String) :
    ((Classification.ofStrategy a cs).map (·.scenario)).Nodup := by
  have hpairs : ((Classification.ofStrategy a cs).map fun c => (c.scenario, c.strategy)).Nodup :=
    hcs.sublist (List.filter_sublist.map _)
  have hown : (Classification.ofStrategy a cs).map (fun c => (c.scenario, c.strategy)) =
      ((Classification.ofStrategy a cs).map (·.scenario)).map fun scenario => (scenario, a) := by
    rw [List.map_map]
    refine List.map_congr_left fun c hc => ?_
    exact congrArg (Prod.mk c.scenario) (of_decide_eq_true (List.mem_filter.1 hc).2)
  rw [hown] at hpairs
  exact hpairs.of_map _

theorem get?_verdictsOf {scenario : String} {v : Verdict} :
    (verdictsOf a cs).get? scenario = some v ↔
      ∃ c ∈ cs, c.strategy = a ∧ c.scenario = scenario ∧ c.verdict = v := by
  have hkeys : (((Classification.ofStrategy a cs).map fun c => (c.scenario, c.verdict)).map
      Prod.fst).Nodup := by
    rw [List.map_map]
    exact nodup_ofStrategy hcs a
  rw [verdictsOf, NameMap.get?_ofList hkeys, NameMap.find_eq_some_iff hkeys]
  simp only [List.mem_map, Classification.ofStrategy, List.mem_filter, decide_eq_true_eq,
    Prod.mk.injEq, and_assoc]

theorem mem_scenarios_matrixOf {scenario : String} {v : Verdict} :
    scenario ∈ (matrixOf a cs).scenarios v ↔ (verdictsOf a cs).get? scenario = some v := by
  rw [matrixOf, Confusion.mem_scenarios_ofList, get?_verdictsOf hcs]
  simp only [Classification.ofStrategy, List.mem_filter, decide_eq_true_eq, and_assoc]
  constructor
  · rintro ⟨c, hc, hstrategy, hverdict, hscenario⟩
    exact ⟨c, hc, hstrategy, hscenario, hverdict⟩
  · rintro ⟨c, hc, hstrategy, hscenario, hverdict⟩
    exact ⟨c, hc, hstrategy, hverdict, hscenario⟩

theorem count_matrixOf (a : String) (v : Verdict) :
    (matrixOf a cs).count v = ((matrixOf a cs).scenarios v).size := by
  have hnodup : (((Classification.ofStrategy a cs).filter fun c => c.verdict = v).map
      (·.scenario)).Nodup := (nodup_ofStrategy hcs a).sublist (List.filter_sublist.map _)
  rw [matrixOf, Confusion.count_ofList, Confusion.scenarios, Confusion.names_ofList,
    ← List.length_map (·.scenario), ← NameSet.size_ofList hnodup]
  cases ((Classification.ofStrategy a cs).filter fun c => c.verdict = v).map (·.scenario) <;> rfl

theorem names_against_verdictsOf (a b : String) (metric : Metric) :
    let d := ((matrixOf a cs).scenarios metric.verdict).diff
      ((matrixOf b cs).scenarios metric.verdict)
    (Additional.against (verdictsOf a cs) (verdictsOf b cs)).names.get metric =
        (if d.isEmpty then none else some d) ∧
      (Additional.against (verdictsOf a cs) (verdictsOf b cs)).count metric = d.size := by
  intro d
  have hmem : ∀ scenario, scenario ∈ Additional.counted (verdictsOf a cs) (verdictsOf b cs) metric ↔
      scenario ∈ d := by
    intro scenario
    rw [Additional.mem_counted, NameSet.mem_diff, mem_scenarios_matrixOf hcs,
      mem_scenarios_matrixOf hcs]
  refine ⟨?_, ?_⟩
  · rw [Additional.names_against]
    exact NameSet.ofList?_eq hmem
  · have hd : NameSet.ofList (Additional.counted (verdictsOf a cs) (verdictsOf b cs) metric) = d :=
      NameSet.ext fun scenario => NameSet.mem_ofList.trans (hmem scenario)
    rw [Additional.count_against, ← NameSet.size_ofList (Additional.nodup_counted ..), hd]

theorem against_of_same (h : ∀ scenario v,
    (∃ c ∈ cs, c.strategy = a ∧ c.scenario = scenario ∧ c.verdict = v) ↔
      ∃ c ∈ cs, c.strategy = b ∧ c.scenario = scenario ∧ c.verdict = v) :
    Additional.against (verdictsOf a cs) (verdictsOf b cs) = .empty := by
  have hnone : ∀ metric, Additional.counted (verdictsOf a cs) (verdictsOf b cs) metric = [] := by
    intro metric
    refine List.eq_nil_iff_forall_not_mem.2 fun scenario hmem => ?_
    obtain ⟨hown, hother⟩ := Additional.mem_counted.1 hmem
    exact hother ((get?_verdictsOf hcs).2 ((h scenario _).1 ((get?_verdictsOf hcs).1 hown)))
  refine Additional.ext (fun metric => ?_) (fun metric => ?_)
  · rw [Additional.count_against, hnone, Additional.count_empty]
    rfl
  · rw [Additional.names_against, hnone, Additional.names_empty]
    rfl

end

/-- If no strategy was classified twice on a scenario, the comparisons of a report agree with its
matrices, and so add up. -/
theorem compute_pairwise (cs : List Classification)
    (hcs : (cs.map fun c => (c.scenario, c.strategy)).Nodup) :
    let r := compute cs
    (∀ a b, (r.additional? a b).isSome = true ↔
      a ≠ b ∧ a ∈ cs.map (·.strategy) ∧ b ∈ cs.map (·.strategy)) ∧
    (∀ a b x, r.additional? a b = some x → ∃ ma mb,
      r.matrices.get? a = some ma ∧ r.matrices.get? b = some mb ∧
      ∀ metric : Metric,
        let d := (ma.scenarios metric.verdict).diff (mb.scenarios metric.verdict)
        x.names.get metric = (if d.isEmpty then none else some d) ∧ x.count metric = d.size) ∧
    (∀ a b x y ma mb, r.additional? a b = some x → r.additional? b a = some y →
      r.matrices.get? a = some ma → r.matrices.get? b = some mb → ∀ metric : Metric,
        x.count metric + mb.count metric.verdict = y.count metric + ma.count metric.verdict) ∧
    (∀ a b c x y z, r.additional? a b = some x → r.additional? b c = some y →
      r.additional? a c = some z → ∀ metric : Metric,
        z.count metric ≤ x.count metric + y.count metric) ∧
    ∀ a b, a ≠ b → a ∈ cs.map (·.strategy) → b ∈ cs.map (·.strategy) →
      (∀ scenario v, (∃ c ∈ cs, c.strategy = a ∧ c.scenario = scenario ∧ c.verdict = v) ↔
        ∃ c ∈ cs, c.strategy = b ∧ c.scenario = scenario ∧ c.verdict = v) →
      ∃ x y, r.additional? a b = some x ∧ r.additional? b a = some y ∧
        x.isEmpty = true ∧ y.isEmpty = true ∧ ∀ metric,
          x.names.get metric = none ∧ y.names.get metric = none := by
  intro r
  have hsome : ∀ {a b x}, r.additional? a b = some x →
      a ∈ cs.map (·.strategy) ∧ b ∈ cs.map (·.strategy) ∧
        x = .against (verdictsOf a cs) (verdictsOf b cs) := by
    intro a b x hx
    obtain ⟨⟨-, ha, hb⟩, hx⟩ := additional?_eq_some_iff.1 hx
    exact ⟨ha, hb, hx⟩
  refine ⟨fun a b => ?_, ?_, ?_, ?_, ?_⟩
  · rw [additional?_compute]
    split
    · next h => exact iff_of_true rfl h
    · next h => exact iff_of_false Bool.false_ne_true h
  · intro a b x hx
    obtain ⟨ha, hb, rfl⟩ := hsome hx
    exact ⟨_, _, get?_matrices_compute ha, get?_matrices_compute hb,
      names_against_verdictsOf hcs a b⟩
  · intro a b x y ma mb hx hy hma hmb metric
    obtain ⟨ha, hb, rfl⟩ := hsome hx
    obtain ⟨-, -, rfl⟩ := hsome hy
    obtain rfl := Option.some.inj ((get?_matrices_compute ha).symm.trans hma)
    obtain rfl := Option.some.inj ((get?_matrices_compute hb).symm.trans hmb)
    rw [(names_against_verdictsOf hcs a b metric).2, (names_against_verdictsOf hcs b a metric).2,
      count_matrixOf hcs, count_matrixOf hcs]
    exact NameSet.size_diff_add ..
  · intro a b c x y z hx hy hz metric
    obtain ⟨-, -, rfl⟩ := hsome hx
    obtain ⟨-, -, rfl⟩ := hsome hy
    obtain ⟨-, -, rfl⟩ := hsome hz
    rw [(names_against_verdictsOf hcs a b metric).2, (names_against_verdictsOf hcs b c metric).2,
      (names_against_verdictsOf hcs a c metric).2]
    exact NameSet.size_diff_le ..
  · intro a b hne ha hb hsame
    refine ⟨.empty, .empty, ?_, ?_, rfl, rfl, fun metric => ⟨?_, ?_⟩⟩
    · rw [additional?_compute, if_pos ⟨hne, ha, hb⟩, against_of_same hcs hsame]
    · rw [additional?_compute, if_pos ⟨hne.symm, hb, ha⟩,
        against_of_same hcs fun scenario v => (hsame scenario v).symm]
    · exact Additional.names_empty metric
    · exact Additional.names_empty metric

def threeStrategies : List Classification :=
  [.make .separate "S" "x" .conflict .conflicts .differs,
    .make .separate "S" "y" .conflict .success .differs,
    .make .separate "S" "z" .conflict .conflicts .differs,
    .make .separate "T" "x" .success .success .agrees,
    .make .separate "T" "y" .success .failed .notComparable,
    .make .separate "T" "z" .success .success .agrees]

theorem compute_threeStrategies_pairwise :
    (threeStrategies.map fun c => (c.scenario, c.strategy)).Nodup ∧
    ∃ x y z, (compute threeStrategies).additional? "x" "y" = some x ∧
      (compute threeStrategies).additional? "y" "z" = some y ∧
      (compute threeStrategies).additional? "x" "z" = some z ∧
      (∀ metric, z.count metric ≤ x.count metric + y.count metric) ∧
      z.count .truePositive = 0 ∧ x.count .truePositive = 1 := by
  have hnodup : (threeStrategies.map fun c => (c.scenario, c.strategy)).Nodup := by decide
  obtain ⟨hexists, -, -, htriangle, -⟩ := compute_pairwise threeStrategies hnodup
  obtain ⟨x, hx⟩ := Option.isSome_iff_exists.1 ((hexists "x" "y").2 (by decide))
  obtain ⟨y, hy⟩ := Option.isSome_iff_exists.1 ((hexists "y" "z").2 (by decide))
  obtain ⟨z, hz⟩ := Option.isSome_iff_exists.1 ((hexists "x" "z").2 (by decide))
  have hcounts : ((compute threeStrategies).additional? "x" "z").map (·.count .truePositive) =
      some 0 ∧ ((compute threeStrategies).additional? "x" "y").map (·.count .truePositive) =
      some 1 := by decide
  rw [hx, hz] at hcounts
  exact ⟨hnodup, x, y, z, hx, hy, hz, htriangle "x" "y" "z" x y z hx hy hz,
    Option.some.inj hcounts.1, Option.some.inj hcounts.2⟩

end Metrics
end MergeTrial
