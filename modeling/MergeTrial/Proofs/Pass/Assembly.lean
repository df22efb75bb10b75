import MergeTrial.Proofs.Pass.Collection

/-! Putting an evaluation together. Whatever the order in which the runs of the first `k` rows came
in, and whichever of them were lost, the evaluation is the one that the plan prescribes. -/

namespace MergeTrial.Pass
namespace Trial

def classificationOf (t : Trial) (policy : Policy) (scenario : Scenario) (entrant : Entrant Id) :
    Classification :=
  let run := t.runOf scenario entrant
  .make policy scenario.name entrant.name scenario.label run.status run.comparison

/-- The evaluation of a pass that gets through its first `k` scenarios. -/
def outcome (t : Trial) (k : Nat) : Evaluation where
  runs := (t.pairs k).map fun pair => t.runOf pair.1 pair.2
  classifications := (t.pairs k).map fun pair =>
    t.classificationOf t.settings.policy pair.1 pair.2
  unavailable := (t.entrants.filter fun entrant => !entrant.available).map (·.name)
  cancelled := k < t.corpus.size
  evaluated := k

def runAt (t : Trial) (cell : Nat) : Run :=
  match t.pair? cell with
  | some (scenario, entrant) => t.runOf scenario entrant
  | none => default

def classificationAt (t : Trial) (cell : Nat) : Classification :=
  match t.pair? cell with
  | some (scenario, entrant) => t.classificationOf t.settings.policy scenario entrant
  | none => default

theorem runAt_eq {t : Trial} {cell : Nat} {scenario : Scenario} {entrant : Entrant Id}
    (h : t.pair? cell = some (scenario, entrant)) : t.runAt cell = t.runOf scenario entrant := by
  rw [runAt, h]

theorem classificationAt_eq {t : Trial} {cell : Nat} {scenario : Scenario} {entrant : Entrant Id}
    (h : t.pair? cell = some (scenario, entrant)) :
    t.classificationAt cell = t.classificationOf t.settings.policy scenario entrant := by
  rw [classificationAt, h]

theorem runOf_eq_ofOutput (t : Trial) (scenario : Scenario) (entrant : Entrant Id) :
    ∃ output, t.runOf scenario entrant = .ofOutput scenario entrant.name output := by
  unfold runOf
  split
  · exact ⟨_, rfl⟩
  · exact ⟨_, rfl⟩

theorem scenario_runOf (t : Trial) (scenario : Scenario) (entrant : Entrant Id) :
    (t.runOf scenario entrant).scenario = scenario.name := by
  obtain ⟨output, houtput⟩ := t.runOf_eq_ofOutput scenario entrant
  rw [houtput, Run.ofOutput]

theorem strategy_runOf (t : Trial) (scenario : Scenario) (entrant : Entrant Id) :
    (t.runOf scenario entrant).strategy = entrant.name := by
  obtain ⟨output, houtput⟩ := t.runOf_eq_ofOutput scenario entrant
  rw [houtput, Run.ofOutput]

theorem strategy_mem_names {t : Trial} {k : Nat} {run : Run} (h : run ∈ (t.outcome k).runs) :
    run.strategy ∈ t.names := by
  obtain ⟨⟨scenario, entrant⟩, hpair, rfl⟩ := List.mem_map.1 h
  obtain ⟨_, -, hmem⟩ := List.mem_flatMap.1 hpair
  obtain ⟨_, hentrant, heq⟩ := List.mem_map.1 hmem
  obtain ⟨-, rfl⟩ := Prod.mk.inj heq
  rw [strategy_runOf]
  exact List.mem_map_of_mem hentrant

theorem ofRun_runOf (t : Trial) (policy : Policy) (scenario : Scenario) (entrant : Entrant Id) :
    Classification.ofRun policy scenario (t.runOf scenario entrant) =
      .ok (t.classificationOf policy scenario entrant) := by
  obtain ⟨output, houtput⟩ := t.runOf_eq_ofOutput scenario entrant
  rw [classificationOf, houtput, Classification.ofRun_ofOutput]
  rfl

theorem elementAt_eq_ok {α : Type} {xs : List α} {i : Nat} {x : α} (h : xs[i]? = some x) :
    elementAt xs i = .ok x := by
  rw [elementAt, h]

theorem lostRun_eq_ok {t : Trial} {cell : Nat} {scenario : Scenario} {entrant : Entrant Id}
    (hpair : t.pair? cell = some (scenario, entrant)) (hlost : t.yield scenario entrant = none) :
    lostRun t.corpus t.names cell = .ok (cell, t.runAt cell) := by
  obtain ⟨hscenario, hentrant⟩ := pair?_eq_some_iff.1 hpair
  have hwidth : t.names.length = t.entrants.length := List.length_map _
  have hname : t.names[cell % t.names.length]? = some entrant.name := by
    rw [hwidth, names, List.getElem?_map, hentrant]
    rfl
  rw [lostRun, hwidth, elementAt_eq_ok hscenario, ← hwidth, elementAt_eq_ok hname,
    runAt_eq hpair, (yield_eq_none hlost).2]
  rfl

theorem classifyCell_eq_ok {t : Trial} {cell : Nat} {scenario : Scenario} {entrant : Entrant Id}
    (hpair : t.pair? cell = some (scenario, entrant)) :
    classifyCell t.settings.policy t.corpus t.names.length (cell, t.runAt cell) =
      .ok (t.classificationAt cell) := by
  have hwidth : t.names.length = t.entrants.length := List.length_map _
  rw [classifyCell, hwidth, elementAt_eq_ok (pair?_eq_some_iff.1 hpair).1, runAt_eq hpair,
    classificationAt_eq hpair]
  exact t.ofRun_runOf t.settings.policy scenario entrant

theorem map_range_eq_map_pairs {α : Type} {t : Trial} {k : Nat} {f : Nat → α}
    {g : Scenario × Entrant Id → α} (hk : k ≤ t.corpus.scenarios.length)
    (h : ∀ cell pair, t.pair? cell = some pair → f cell = g pair) :
    (List.range (k * t.entrants.length)).map f = (t.pairs k).map g := by
  rw [← filterMap_pair?, List.map_filterMap]
  refine (List.filterMap_eq_map_iff_forall_eq_some.2 fun cell hcell => ?_).symm
  obtain ⟨scenario, entrant, hpair⟩ := exists_pair hk (List.mem_range.1 hcell)
  rw [hpair, h cell _ hpair]
  rfl

end Trial

namespace Progress.Collects
variable {t : Trial} {reached k : Nat} {p : Progress}

theorem lost_spec (h : p.Collects t reached []) :
    (∀ cell ∈ p.lost, ∃ scenario entrant,
      t.pair? cell = some (scenario, entrant) ∧ t.yield scenario entrant = none) ∧
    (p.finished.map Prod.fst ++ p.lost).Perm (List.range reached) := by
  obtain ⟨lost, hlost, hcells⟩ := h.cells
  rw [List.nil_append] at hcells
  have hnodup : (p.finished.map Prod.fst ++ lost).Nodup := hcells.nodup_iff.2 List.nodup_range
  have hpresent : ∀ cell ∈ lost, t.isPresent cell = true := by
    intro cell hcell
    obtain ⟨scenario, entrant, hpair, hyield⟩ := hlost cell hcell
    exact (Trial.isPresent_eq hpair).trans (Trial.yield_eq_none hyield).1
  have hmem : ∀ cell, cell ∈ p.lost ↔ cell ∈ lost := by
    intro cell
    have hreached := hcells.mem_iff (a := cell)
    rw [List.mem_append, List.mem_range] at hreached
    simp only [Progress.lost, h.spawned, List.mem_filter, List.mem_range, Bool.not_eq_true',
      List.contains_eq_mem, decide_eq_false_iff_not]
    constructor
    · rintro ⟨⟨hlt, -⟩, hunfinished⟩
      exact (hreached.2 hlt).resolve_left hunfinished
    · intro hcell
      exact ⟨⟨hreached.1 (Or.inr hcell), hpresent cell hcell⟩,
        fun hfinished => (List.disjoint_of_nodup_append hnodup) hfinished hcell⟩
  have hfiltered : p.lost.Nodup := by
    rw [Progress.lost, h.spawned]
    exact (List.nodup_range.filter _).filter _
  have hperm : p.lost.Perm lost :=
    (List.perm_ext_iff_of_nodup hfiltered (List.nodup_append.1 hnodup).2.1).2 hmem
  exact ⟨fun cell hcell => hlost cell ((hmem cell).1 hcell), (hperm.append_left _).trans hcells⟩

theorem finished_eq (h : p.Collects t reached []) :
    p.finished = (p.finished.map Prod.fst).map fun cell => (cell, t.runAt cell) := by
  rw [List.map_map]
  refine (List.map_id _).symm.trans (List.map_congr_left fun entry hentry => ?_)
  obtain ⟨scenario, entrant, hpair, hyield⟩ := h.finished entry hentry
  exact Prod.ext rfl ((Trial.yield_eq_some hyield).trans (Trial.runAt_eq hpair).symm)

theorem sorted_eq (h : p.Collects t reached []) :
    (p.finished ++ p.lost.map fun cell => (cell, t.runAt cell)).mergeSort
        (fun a b => decide (a.1 ≤ b.1)) =
      (List.range reached).map fun cell => (cell, t.runAt cell) := by
  have hperm : (p.finished ++ p.lost.map fun cell => (cell, t.runAt cell)).Perm
      ((List.range reached).map fun cell => (cell, t.runAt cell)) := by
    rw [h.finished_eq, ← List.map_append]
    exact h.lost_spec.2.map _
  have hsorted : ((p.finished ++ p.lost.map fun cell => (cell, t.runAt cell)).mergeSort
      fun a b => decide (a.1 ≤ b.1)).Pairwise fun a b => a.1 ≤ b.1 := by
    refine (List.pairwise_mergeSort (fun a b c => ?_) (fun a b => ?_) _).imp of_decide_eq_true
    · simpa only [decide_eq_true_eq] using Nat.le_trans
    · simpa only [Bool.or_eq_true, decide_eq_true_eq] using Nat.le_total a.1 b.1
  have hmerged := (List.mergeSort_perm _ fun a b => decide (a.1 ≤ b.1)).trans hperm
  -- equal numbers mean equal entries, as every entry is that of its cell
  refine hmerged.eq_of_pairwise (fun a b ha hb hab hba => ?_) hsorted
    (List.pairwise_map.2 (List.pairwise_lt_range.imp Nat.le_of_lt))
  obtain ⟨cell, -, rfl⟩ := List.mem_map.1 (hmerged.mem_iff.1 ha)
  obtain ⟨other, -, rfl⟩ := List.mem_map.1 hb
  obtain rfl : cell = other := Nat.le_antisymm hab hba
  rfl

theorem assemble_eq (h : p.Collects t (k * t.entrants.length) [])
    (hk : k ≤ t.corpus.scenarios.length) (hevaluated : p.evaluated = k)
    (hcancelled : p.cancelled = decide (k < t.corpus.size)) :
    assemble t.settings.policy t.corpus t.names (unavailable t.entrants) p = .ok (t.outcome k) := by
  have hlost : p.lost.mapM (lostRun t.corpus t.names) =
      .ok (p.lost.map fun cell => (cell, t.runAt cell)) := by
    refine Outcome.mapM_eq_ok fun cell hcell => ?_
    obtain ⟨scenario, entrant, hpair, hyield⟩ := h.lost_spec.1 cell hcell
    exact Trial.lostRun_eq_ok hpair hyield
  have hclassified : ((List.range (k * t.entrants.length)).map fun cell =>
      (cell, t.runAt cell)).mapM (classifyCell t.settings.policy t.corpus t.names.length) =
      .ok ((List.range (k * t.entrants.length)).map t.classificationAt) := by
    rw [List.mapM_map]
    refine Outcome.mapM_eq_ok fun cell hcell => ?_
    obtain ⟨scenario, entrant, hpair⟩ := Trial.exists_pair hk (List.mem_range.1 hcell)
    exact Trial.classifyCell_eq_ok hpair
  have hruns : (List.range (k * t.entrants.length)).map t.runAt =
      (t.pairs k).map fun pair => t.runOf pair.1 pair.2 :=
    Trial.map_range_eq_map_pairs hk fun cell pair => Trial.runAt_eq
  have hclassifications : (List.range (k * t.entrants.length)).map t.classificationAt =
      (t.pairs k).map fun pair => t.classificationOf t.settings.policy pair.1 pair.2 :=
    Trial.map_range_eq_map_pairs hk fun cell pair => Trial.classificationAt_eq
  have hunavailable : t.names.filter (fun name => decide (name ∈ unavailable t.entrants)) =
      (t.entrants.filter fun entrant => !entrant.available).map (·.name) := by
    rw [Trial.names, List.filter_map]
    refine congrArg _ (List.filter_congr fun entrant hentrant => ?_)
    simp [mem_unavailable t.nodup_names hentrant]
  simp only [assemble, hlost, bind, Except.bind, h.sorted_eq, hclassified, hunavailable,
    List.map_map, Function.comp_def, hruns, hclassifications, hevaluated, hcancelled]
  rfl

end Progress.Collects
end MergeTrial.Pass
