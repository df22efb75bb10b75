import MergeTrial.Proofs.Metrics.Accounting

/-! Reports on fewer strategies. Whatever a report says is about one strategy or about two of them,
so the report on the classifications of some strategies is the part of the whole report that is
about these. -/

namespace MergeTrial

namespace NameMap
variable {α β : Type}

def filterMap (m : NameMap α) (f : String → α → Option β) : NameMap β where
  toList := m.toList.filterMap fun entry => (f entry.1 entry.2).map (Prod.mk entry.1)
  ascending := by
    refine List.pairwise_map.2 ((List.pairwise_map.1 m.ascending).filterMap _ ?_)
    intro x y hlt x' hx y' hy
    obtain ⟨_, -, rfl⟩ := Option.map_eq_some_iff.1 hx
    obtain ⟨_, -, rfl⟩ := Option.map_eq_some_iff.1 hy
    exact hlt

theorem find_filterMap (f : String → α → Option β) {l : List (String × α)}
    (h : (l.map Prod.fst).Nodup) (name : String) :
    find name (l.filterMap fun entry => (f entry.1 entry.2).map (Prod.mk entry.1)) =
      (find name l).bind (f name) := by
  induction l with
  | nil => rfl
  | cons entry rest ih =>
    obtain ⟨key, value⟩ := entry
    obtain ⟨hkey, hrest⟩ := List.nodup_cons.1 h
    rw [List.filterMap_cons, find]
    by_cases hname : key = name
    · subst hname
      have hnone : find key rest = none := find_eq_none_iff.2 hkey
      rw [if_pos rfl, Option.bind_some]
      -- a dropped value must not uncover a later one
      cases hvalue : f key value with
      | none => exact (ih hrest).trans (by rw [hnone, Option.bind_none])
      | some value' => exact if_pos rfl
    · rw [if_neg hname]
      cases hvalue : f key value with
      | none => exact ih hrest
      | some value' => exact (if_neg hname).trans (ih hrest)

@[simp] theorem get?_filterMap (m : NameMap α) (f : String → α → Option β) (name : String) :
    (m.filterMap f).get? name = (m.get? name).bind (f name) :=
  find_filterMap f m.nodup_keys name

def nonempty? (m : NameMap α) : Option (NameMap α) := if m.toList.isEmpty then none else some m

theorem bind_get?_nonempty? (m : NameMap α) (name : String) :
    m.nonempty?.bind (·.get? name) = m.get? name := by
  unfold nonempty?
  split
  · next h =>
    rw [get?, List.isEmpty_iff.1 h]
    rfl
  · rfl

def NoEmptyRows (t : NameMap (NameMap α)) : Prop :=
  ∀ name row, t.get? name = some row → row.nonempty? = some row

theorem nonempty?_insert (m : NameMap α) (name : String) (value : α) :
    (m.insert name value).nonempty? = some (m.insert name value) := by
  refine if_neg fun h => ?_
  have hnone : (m.insert name value).get? name = none := by
    rw [get?, List.isEmpty_iff.1 h]
    rfl
  rw [get?_insert, if_pos rfl] at hnone
  exact Option.some_ne_none value hnone

theorem NoEmptyRows.ext {s t : NameMap (NameMap α)} (hs : s.NoEmptyRows) (ht : t.NoEmptyRows)
    (h : ∀ a b, (s.get? a).bind (·.get? b) = (t.get? a).bind (·.get? b)) : s = t := by
  have hrow : ∀ {t : NameMap (NameMap α)}, t.NoEmptyRows → ∀ a,
      ((t.get? a).getD ∅).nonempty? = t.get? a := by
    intro t ht a
    cases hrow : t.get? a with
    | none => rfl
    | some row => exact ht a row hrow
  have hentry : ∀ (t : NameMap (NameMap α)) a b,
      ((t.get? a).getD ∅).get? b = (t.get? a).bind (·.get? b) := by
    intro t a b
    cases t.get? a <;> rfl
  ext1 a
  have hrows : (s.get? a).getD ∅ = (t.get? a).getD ∅ := by
    ext1 b
    rw [hentry, hentry, h]
  rw [← hrow hs, ← hrow ht, hrows]

end NameMap

namespace Gap

theorem mergeSort_filter (gaps : List Gap) (p : Gap → Bool) :
    (gaps.filter p).mergeSort le = (gaps.mergeSort le).filter p := by
  have hperm : ((gaps.filter p).mergeSort le).Perm ((gaps.mergeSort le).filter p) :=
    (List.mergeSort_perm _ le).trans ((List.mergeSort_perm gaps le).filter p).symm
  exact hperm.eq_of_pairwise (fun _ _ _ _ => le_antisymm) (pairwise_mergeSort _)
    ((pairwise_mergeSort gaps).filter p)

end Gap

namespace Metrics

def restrict (kept : String → Bool) (m : Metrics) : Metrics where
  matrices := m.matrices.filterKeys kept
  pairwise := (m.pairwise.filterKeys kept).filterMap fun _ row => (row.filterKeys kept).nonempty?
  gaps := m.gaps.filter fun gap => kept gap.strategy
  total := ((m.matrices.filterKeys kept).toList.map fun entry => entry.2.total).sum

theorem additional?_restrict (kept : String → Bool) (m : Metrics) (a b : String) :
    (m.restrict kept).additional? a b = if kept a ∧ kept b then m.additional? a b else none := by
  rw [additional?, restrict, NameMap.get?_filterMap, NameMap.get?_filterKeys, additional?]
  by_cases ha : kept a = true
  · rw [if_pos ha]
    cases m.pairwise.get? a with
    | none => exact (ite_self none).symm
    | some row =>
      rw [Option.bind_some, NameMap.bind_get?_nonempty?, NameMap.get?_filterKeys, Option.bind_some]
      simp only [ha, true_and]
  · rw [if_neg ha, if_neg fun h => ha h.1]
    rfl

theorem noEmptyRows_restrict (kept : String → Bool) (m : Metrics) :
    (m.restrict kept).pairwise.NoEmptyRows := by
  intro a row hrow
  rw [restrict, NameMap.get?_filterMap] at hrow
  obtain ⟨whole, -, hrow⟩ := Option.bind_eq_some_iff.1 hrow
  unfold NameMap.nonempty? at hrow
  split at hrow
  · exact nomatch hrow
  · next hne =>
    obtain rfl := Option.some.inj hrow
    exact if_neg hne

theorem noEmptyRows_addPair {pairs : NameMap (NameMap Additional)} (h : pairs.NoEmptyRows)
    (a b : String × Verdicts) : (addPair a pairs b).NoEmptyRows := by
  unfold addPair
  split
  · exact h
  · intro name row hrow
    rw [NameMap.get?_alter] at hrow
    split at hrow
    · obtain rfl := Option.some.inj hrow
      exact NameMap.nonempty?_insert ..
    · exact h name row hrow

theorem noEmptyRows_compute (cs : List Classification) : (compute cs).pairwise.NoEmptyRows :=
  List.foldlRecOn _ _ (fun _ _ h => nomatch h) fun _ hpairs a _ =>
    List.foldlRecOn _ _ hpairs fun _ h b _ => noEmptyRows_addPair h a b

section
variable (kept : String → Bool) (cs : List Classification)

theorem ofStrategy_filter (a : String) :
    Classification.ofStrategy a (cs.filter fun c => kept c.strategy) =
      if kept a then Classification.ofStrategy a cs else [] := by
  rw [Classification.ofStrategy, List.filter_filter]
  split
  · next ha =>
    refine List.filter_congr fun c _ => ?_
    by_cases hc : c.strategy = a
    · simp [hc, ha]
    · simp [hc]
  · next ha =>
    refine List.filter_eq_nil_iff.2 fun c _ h => ha ?_
    obtain ⟨hstrategy, hkept⟩ := Bool.and_eq_true_iff.1 h
    exact of_decide_eq_true hstrategy ▸ hkept

theorem mem_strategies_filter {a : String} :
    a ∈ (cs.filter fun c => kept c.strategy).map (·.strategy) ↔
      kept a = true ∧ a ∈ cs.map (·.strategy) := by
  simp only [List.mem_map, List.mem_filter]
  constructor
  · rintro ⟨c, ⟨hc, hkept⟩, rfl⟩
    exact ⟨hkept, c, hc, rfl⟩
  · rintro ⟨hkept, c, hc, rfl⟩
    exact ⟨c, ⟨hc, hkept⟩, rfl⟩

theorem matrices_filter : (compute (cs.filter fun c => kept c.strategy)).matrices =
    (compute cs).matrices.filterKeys kept := by
  ext1 a
  rw [NameMap.get?_filterKeys, compute, compute, Tally.get?_matrices, Tally.get?_matrices,
    ofStrategy_filter]
  by_cases ha : kept a = true
  · rw [if_pos ha, if_pos ha]
  · rw [if_neg ha, if_neg ha]
    rfl

theorem additional?_filter (a b : String) :
    (compute (cs.filter fun c => kept c.strategy)).additional? a b =
      if kept a ∧ kept b then (compute cs).additional? a b else none := by
  simp only [additional?_compute, mem_strategies_filter, verdictsOf, ofStrategy_filter]
  by_cases hkept : kept a = true ∧ kept b = true
  · simp only [hkept, true_and, and_self, if_true]
  · rw [if_neg fun h => hkept ⟨h.2.1.1, h.2.2.1⟩, if_neg hkept]

theorem gaps_filter : (compute (cs.filter fun c => kept c.strategy)).gaps =
    (compute cs).gaps.filter fun gap => kept gap.strategy := by
  have hgaps : (cs.filter fun c => kept c.strategy).filterMap gap? =
      (cs.filterMap gap?).filter fun gap => kept gap.strategy := by
    rw [List.filterMap_filter, List.filter_filterMap]
    refine List.filterMap_congr fun c _ => ?_
    by_cases herror : c.verdict = .error
    · simp [gap?, herror, Option.filter]
    · simp [gap?, herror]
  rw [compute, compute, Tally.gaps_ofList, Tally.gaps_ofList, hgaps, Gap.mergeSort_filter]

theorem compute_filter :
    compute (cs.filter fun c => kept c.strategy) = (compute cs).restrict kept := by
  have hpairwise : (compute (cs.filter fun c => kept c.strategy)).pairwise =
      ((compute cs).restrict kept).pairwise := by
    -- a row whose other entries all go must go as well
    refine (noEmptyRows_compute _).ext (noEmptyRows_restrict kept _) fun a b => ?_
    exact (additional?_filter kept cs a b).trans (additional?_restrict kept _ a b).symm
  have htotal : (compute (cs.filter fun c => kept c.strategy)).total =
      ((compute cs).restrict kept).total := by
    rw [restrict, ← matrices_filter, sum_totals]
    rfl
  exact Metrics.mk.injEq .. ▸ ⟨matrices_filter kept cs, hpairwise, gaps_filter kept cs, htotal⟩

end
end Metrics
end MergeTrial
