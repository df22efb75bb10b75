import MergeTrial.Metrics.Report

/-! What the loops of a report add up to: each strategy's part of a tally is made from its own
classifications alone. -/

namespace MergeTrial

theorem foldl_some {α β : Type} (f : α → β → α) (start : α) (xs : List β) :
    xs.foldl (fun value x => some (f (value.getD start) x)) none =
      if xs.isEmpty then none else some (xs.foldl f start) := by
  have hsome : ∀ (xs : List β) (y : α),
      xs.foldl (fun value x => some (f (value.getD start) x)) (some y) = some (xs.foldl f y) := by
    intro xs
    induction xs with
    | nil => exact fun _ => rfl
    | cons x rest ih => exact fun y => ih (f y x)
  cases xs with
  | nil => rfl
  | cons x rest => exact hsome rest (f start x)

section Loops
variable {σ α : Type} {step : σ → α → σ} {p : α → Bool}

theorem count_foldl (count : σ → Nat)
    (h : ∀ s x, count (step s x) = if p x then count s + 1 else count s) (xs : List α) (s : σ) :
    count (xs.foldl step s) = count s + (xs.filter p).length := by
  induction xs generalizing s with
  | nil => rfl
  | cons x rest ih =>
    rw [List.foldl_cons, ih, h, List.filter_cons]
    cases p x with
    | false => rfl
    | true => exact Nat.add_right_comm ..

theorem names_foldl (names : σ → Option NameSet) {name : α → String}
    (h : ∀ s x, names (step s x) =
      if p x then some (((names s).getD ∅).insert (name x)) else names s)
    (xs : List α) (s : σ) (hs : names s = none) :
    names (xs.foldl step s) = NameSet.ofList? ((xs.filter p).map name) := by
  have hfold : ∀ (xs : List α) (s : σ), names (xs.foldl step s) = ((xs.filter p).map name).foldl
      (fun set x => some ((set.getD ∅).insert x)) (names s) := by
    intro xs
    induction xs with
    | nil => exact fun _ => rfl
    | cons x rest ih =>
      intro s
      rw [List.foldl_cons, ih, h, List.filter_cons]
      cases p x <;> rfl
  rw [hfold, hs]
  exact foldl_some NameSet.insert ∅ _

end Loops

def Classification.ofStrategy (strategy : String) (cs : List Classification) :
    List Classification :=
  cs.filter fun c => c.strategy = strategy

namespace Confusion

theorem record_comm (m : Confusion) (c d : Classification) :
    (m.record c).record d = (m.record d).record c := by
  unfold record
  congr 1
  · ext1 v
    simp only [ByVerdict.get_modify]
    split <;> split <;> rfl
  · split <;> split <;> rfl
  · ext1 v
    simp only [ByVerdict.get_modify]
    split <;> split <;> simp [NameSet.insert_comm]

theorem count_ofList (cs : List Classification) (v : Verdict) :
    (ofList cs).count v = (cs.filter fun c => c.verdict = v).length := by
  have hstep : ∀ (m : Confusion) (c : Classification), (m.record c).count v =
      if decide (c.verdict = v) then m.count v + 1 else m.count v := by
    intro m c
    rw [count_record]
    simp only [decide_eq_true_eq, eq_comm (a := v)]
  have hcount := count_foldl (·.count v) hstep cs empty
  rwa [count_empty, Nat.zero_add] at hcount

theorem names_ofList (cs : List Classification) (v : Verdict) :
    (ofList cs).names.get v =
      NameSet.ofList? ((cs.filter fun c => c.verdict = v).map (·.scenario)) := by
  have hstep : ∀ (m : Confusion) (c : Classification), (m.record c).names.get v =
      if decide (c.verdict = v) then some (((m.names.get v).getD ∅).insert c.scenario)
      else m.names.get v := by
    intro m c
    rw [names_record, scenarios]
    simp only [decide_eq_true_eq, eq_comm (a := v)]
  exact names_foldl (·.names.get v) hstep cs empty (names_empty v)

theorem mem_scenarios_ofList {cs : List Classification} {v : Verdict} {scenario : String} :
    scenario ∈ (ofList cs).scenarios v ↔ ∃ c ∈ cs, c.verdict = v ∧ c.scenario = scenario := by
  rw [scenarios, names_ofList, NameSet.mem_getD_ofList?, List.mem_map]
  simp only [List.mem_filter, decide_eq_true_eq, and_assoc]

end Confusion

namespace Metrics

def gap? (c : Classification) : Option Gap :=
  if c.verdict = .error then some ⟨c.strategy, c.scenario, c.status⟩ else none

namespace Tally

theorem gaps_foldl (cs : List Classification) (t : Tally) :
    (cs.foldl record t).gaps = t.gaps ++ cs.filterMap gap? := by
  induction cs generalizing t with
  | nil => exact (List.append_nil _).symm
  | cons c rest ih =>
    rw [List.foldl_cons, ih, List.filterMap_cons, record, gap?]
    split <;> simp

theorem matrices_ofList (cs : List Classification) : (ofList cs).matrices = cs.foldl (fun m c =>
    m.alter c.strategy fun matrix => (matrix.getD .empty).record c) ∅ :=
  (List.foldl_hom Tally.matrices fun _ _ => rfl).symm

theorem verdicts_ofList (cs : List Classification) : (ofList cs).verdicts = cs.foldl (fun m c =>
    m.alter c.strategy fun verdicts => (verdicts.getD ∅).insert c.scenario c.verdict) ∅ :=
  (List.foldl_hom Tally.verdicts fun _ _ => rfl).symm

theorem get?_matrices (cs : List Classification) (strategy : String) :
    (ofList cs).matrices.get? strategy =
      if (Classification.ofStrategy strategy cs).isEmpty then none
      else some (.ofList (Classification.ofStrategy strategy cs)) := by
  rw [matrices_ofList, NameMap.get?_foldl_alter]
  exact foldl_some Confusion.record .empty _

theorem get?_verdicts (cs : List Classification) (strategy : String) :
    (ofList cs).verdicts.get? strategy =
      if (Classification.ofStrategy strategy cs).isEmpty then none
      else some (.ofList ((Classification.ofStrategy strategy cs).map fun c =>
        (c.scenario, c.verdict))) := by
  rw [verdicts_ofList, NameMap.get?_foldl_alter, NameMap.ofList, List.foldl_map]
  exact foldl_some (fun (verdicts : Verdicts) (c : Classification) =>
    verdicts.insert c.scenario c.verdict) ∅ _

theorem gaps_ofList (cs : List Classification) : (ofList cs).gaps = cs.filterMap gap? := by
  rw [ofList, gaps_foldl]
  rfl

end Tally
end Metrics
end MergeTrial
