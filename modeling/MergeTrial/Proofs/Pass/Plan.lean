import Mathlib.Data.List.Nodup
import MergeTrial.Pass.Schedule

/-! The cells of a plan, by number. Cell `row * width + column` belongs to the scenario in that row
and the strategy in that column, so the numbers below `k * width` list the pairs of the first `k`
scenarios in the order of the plan. -/

namespace MergeTrial.Pass

theorem mem_distinctAfter {α : Type} {name : α → String} {x : α} {xs : List α} {seen : NameSet}
    (h : x ∈ distinctAfter name seen xs) : x ∈ xs ∧ ¬name x ∈ seen := by
  induction xs generalizing seen with
  | nil => exact absurd h List.not_mem_nil
  | cons y rest ih =>
    simp only [distinctAfter] at h
    split at h
    · obtain ⟨hrest, hseen⟩ := ih h
      exact ⟨List.mem_cons_of_mem _ hrest, hseen⟩
    · next hy =>
      rcases List.mem_cons.1 h with rfl | h
      · exact ⟨List.mem_cons_self, hy⟩
      · obtain ⟨hrest, hseen⟩ := ih h
        exact ⟨List.mem_cons_of_mem _ hrest, fun hx => hseen (NameSet.mem_insert.2 (Or.inr hx))⟩

theorem nodup_distinctAfter {α : Type} {name : α → String} {xs : List α} {seen : NameSet} :
    ((distinctAfter name seen xs).map name).Nodup := by
  induction xs generalizing seen with
  | nil => exact List.nodup_nil
  | cons y rest ih =>
    simp only [distinctAfter]
    split
    · exact ih
    · rw [List.map_cons, List.nodup_cons]
      refine ⟨fun hmem => ?_, ih⟩
      obtain ⟨x, hx, hname⟩ := List.mem_map.1 hmem
      exact (mem_distinctAfter hx).2 (NameSet.mem_insert.2 (Or.inl hname))

theorem mem_unavailable {m : Type → Type} {entrants : List (Entrant m)}
    (h : (entrants.map (·.name)).Nodup) {entrant : Entrant m} (hmem : entrant ∈ entrants) :
    entrant.name ∈ unavailable entrants ↔ entrant.available = false := by
  simp only [unavailable, NameSet.mem_ofList, List.mem_map, List.mem_filter, Bool.not_eq_true']
  constructor
  · rintro ⟨other, ⟨hother, hgone⟩, hname⟩
    rwa [← List.inj_on_of_nodup_map h hother hmem hname]
  · exact fun hgone => ⟨entrant, ⟨hmem, hgone⟩, rfl⟩

theorem nodup_plan {scenarios strategies : List String} (hscenarios : scenarios.Nodup)
    (hstrategies : strategies.Nodup) : (plan scenarios strategies).Nodup := by
  refine List.nodup_flatMap.2 ⟨fun scenario _ => ?_, hscenarios.imp fun hne => ?_⟩
  · exact hstrategies.map fun a b h => (Prod.mk.inj h).2
  · intro pair hleft hright
    obtain ⟨_, -, rfl⟩ := List.mem_map.1 hleft
    obtain ⟨_, -, h⟩ := List.mem_map.1 hright
    exact hne (Prod.mk.inj h).1.symm

theorem mem_plan {scenarios strategies : List String} {scenario strategy : String} :
    (scenario, strategy) ∈ plan scenarios strategies ↔
      scenario ∈ scenarios ∧ strategy ∈ strategies := by
  simp only [plan, List.mem_flatMap, List.mem_map, Prod.mk.injEq]
  constructor
  · rintro ⟨_, hscenario, _, hstrategy, rfl, rfl⟩
    exact ⟨hscenario, hstrategy⟩
  · exact fun h => ⟨scenario, h.1, strategy, h.2, rfl, rfl⟩

theorem pairwise_plan {scenarios strategies : List String}
    (hscenarios : scenarios.Pairwise (· < ·)) (hstrategies : strategies.Pairwise (· < ·)) :
    (plan scenarios strategies).Pairwise fun a b => a.1 < b.1 ∨ a.1 = b.1 ∧ a.2 < b.2 := by
  refine List.pairwise_flatMap.2 ⟨fun scenario _ => ?_, hscenarios.imp fun hlt => ?_⟩
  · exact List.pairwise_map.2 (hstrategies.imp fun hlt => Or.inr ⟨rfl, hlt⟩)
  · intro a ha b hb
    obtain ⟨_, -, rfl⟩ := List.mem_map.1 ha
    obtain ⟨_, -, rfl⟩ := List.mem_map.1 hb
    exact Or.inl hlt

theorem filter_plan {scenarios : List String} (h : scenarios.Nodup) (strategies : List String)
    (scenario : String) :
    (plan scenarios strategies).filter (fun pair => pair.1 == scenario) =
      if scenario ∈ scenarios then strategies.map fun strategy => (scenario, strategy) else [] := by
  induction scenarios with
  | nil => rfl
  | cons first rest ih =>
    obtain ⟨hfirst, hrest⟩ := List.nodup_cons.1 h
    rw [plan, List.flatMap_cons, List.filter_append, ← plan, ih hrest]
    by_cases heq : first = scenario
    · subst heq
      rw [List.filter_eq_self.2 (by simp), if_neg hfirst, if_pos List.mem_cons_self,
        List.append_nil]
    · rw [List.filter_eq_nil_iff.2 (by simp [heq]), List.nil_append]
      simp [Ne.symm heq]

theorem strategies_of_map_eq_plan {α : Type} {xs : List α} {scenario strategy : α → String}
    {scenarios strategies : List String} (h : scenarios.Nodup)
    (hplan : xs.map (fun x => (scenario x, strategy x)) = plan scenarios strategies)
    (name : String) : (xs.filter fun x => scenario x == name).map strategy =
      if name ∈ scenarios then strategies else [] := by
  have hpairs : (xs.filter fun x => scenario x == name).map (fun x => (scenario x, strategy x)) =
      if name ∈ scenarios then strategies.map fun strategy => (name, strategy) else [] := by
    rw [← filter_plan h, ← hplan, List.filter_map]
    rfl
  have hstrategies := congrArg (List.map Prod.snd) hpairs
  rw [List.map_map, apply_ite (List.map Prod.snd), List.map_map, List.map_nil] at hstrategies
  simpa only [Function.comp_def, List.map_id'] using hstrategies

namespace Trial

theorem nodup_names (t : Trial) : t.names.Nodup := nodup_distinctAfter

def pair? (t : Trial) (cell : Nat) : Option (Scenario × Entrant Id) :=
  t.corpus.scenarios[cell / t.entrants.length]?.bind fun scenario =>
    t.entrants[cell % t.entrants.length]?.map fun entrant => (scenario, entrant)

def pairs (t : Trial) (k : Nat) : List (Scenario × Entrant Id) :=
  (t.corpus.scenarios.take k).flatMap fun scenario =>
    t.entrants.map fun entrant => (scenario, entrant)

theorem row_of_cell {width column : Nat} (h : column < width) (row : Nat) :
    (row * width + column) / width = row := by
  rw [Nat.mul_comm, Nat.mul_add_div (by omega), Nat.div_eq_of_lt h, Nat.add_zero]

theorem column_of_cell {width column : Nat} (h : column < width) (row : Nat) :
    (row * width + column) % width = column := by
  rw [Nat.mul_comm, Nat.mul_add_mod, Nat.mod_eq_of_lt h]

theorem pair?_cell (t : Trial) {column : Nat} (h : column < t.entrants.length) (row : Nat) :
    t.pair? (row * t.entrants.length + column) =
      t.corpus.scenarios[row]?.bind fun scenario =>
        t.entrants[column]?.map fun entrant => (scenario, entrant) := by
  rw [pair?, row_of_cell h, column_of_cell h]

theorem pair?_eq_some_iff {t : Trial} {cell : Nat} {scenario : Scenario} {entrant : Entrant Id} :
    t.pair? cell = some (scenario, entrant) ↔
      t.corpus.scenarios[cell / t.entrants.length]? = some scenario ∧
        t.entrants[cell % t.entrants.length]? = some entrant := by
  simp [pair?, Option.bind_eq_some_iff]

theorem exists_pair {t : Trial} {k cell : Nat} (hk : k ≤ t.corpus.scenarios.length)
    (h : cell < k * t.entrants.length) : ∃ scenario entrant,
      t.pair? cell = some (scenario, entrant) := by
  have hwidth : 0 < t.entrants.length := Nat.pos_of_mul_pos_left (Nat.zero_lt_of_lt h)
  have hrow : cell / t.entrants.length < t.corpus.scenarios.length :=
    Nat.lt_of_lt_of_le ((Nat.div_lt_iff_lt_mul hwidth).2 h) hk
  have hcolumn : cell % t.entrants.length < t.entrants.length := Nat.mod_lt _ hwidth
  exact ⟨_, _, pair?_eq_some_iff.2
    ⟨List.getElem?_eq_getElem hrow, List.getElem?_eq_getElem hcolumn⟩⟩

theorem filterMap_getElem?_range {α : Type} (xs : List α) :
    (List.range xs.length).filterMap (fun i => xs[i]?) = xs := by
  induction xs with
  | nil => rfl
  | cons x xs ih =>
    rw [List.length_cons, List.range_succ_eq_map, List.filterMap_cons, List.getElem?_cons_zero,
      List.filterMap_map]
    simpa only [Function.comp_def, List.getElem?_cons_succ, List.cons.injEq, true_and] using ih

theorem filterMap_row (t : Trial) (row : Nat) :
    (List.range t.entrants.length).filterMap
        (fun column => t.pair? (row * t.entrants.length + column)) =
      t.corpus.scenarios[row]?.toList.flatMap fun scenario =>
        t.entrants.map fun entrant => (scenario, entrant) := by
  rw [List.filterMap_congr fun column hcolumn => pair?_cell t (List.mem_range.1 hcolumn) row]
  cases t.corpus.scenarios[row]? with
  | none => simp
  | some scenario =>
    simp only [Option.bind_some, Option.toList_some, List.flatMap_cons, List.flatMap_nil,
      List.append_nil]
    rw [← List.map_filterMap, filterMap_getElem?_range]

theorem filterMap_pair? (t : Trial) (k : Nat) :
    (List.range (k * t.entrants.length)).filterMap t.pair? = t.pairs k := by
  induction k with
  | zero => simp [pairs]
  | succ k ih =>
    rw [Nat.succ_mul, List.range_add, List.filterMap_append, ih, List.filterMap_map]
    simp only [Function.comp_def]
    rw [filterMap_row, pairs, pairs, List.take_add_one, List.flatMap_append]

theorem map_pairs (t : Trial) (k : Nat) :
    (t.pairs k).map (fun pair => (pair.1.name, pair.2.name)) =
      plan (t.corpus.names.take k) t.names := by
  simp only [pairs, plan, Corpus.names, names, ← List.map_take, List.flatMap_map, List.map_flatMap,
    List.map_map, Function.comp_def]

end Trial
end MergeTrial.Pass
