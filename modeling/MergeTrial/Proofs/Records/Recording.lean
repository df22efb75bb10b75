import MergeTrial.Proofs.Pass.Assembly

/-! The record file of a pass: every scenario of the corpus with its label, and the outcomes of all
strategies for the scenarios that the pass got to. -/

namespace MergeTrial

theorem NameMap.find_map_name {α β : Type} (key : α → String) (value : α → β) (xs : List α)
    (name : String) : find name (xs.map fun x => (key x, value x)) =
      (xs.find? fun x => key x = name).map value := by
  induction xs with
  | nil => rfl
  | cons x rest ih =>
    rw [List.map_cons, find, List.find?_cons, ih]
    by_cases h : key x = name <;> simp [h]

theorem NameMap.find_append {α : Type} (xs ys : List (String × α)) (name : String) :
    find name (xs ++ ys) = (find name xs).or (find name ys) := by
  induction xs with
  | nil => rfl
  | cons entry rest ih =>
    rw [List.cons_append, find, find, ih]
    split <;> rfl

namespace Evaluation

theorem get?_recordRun (file : RecordFile) (run : Run) (name : String) :
    (recordRun file run).get? name = (file.get? name).map fun record =>
      if run.scenario = name then
        { record with
          runs := record.runs.insert run.strategy (.ofOutcome run.status run.comparison) }
      else record := by
  unfold recordRun
  by_cases h : run.scenario = name
  · subst h
    cases hfile : file.get? run.scenario <;> simp [hfile]
  · cases hrecord : file.get? run.scenario with
    | none => simp [h]
    | some record => simp [h, Ne.symm h]

theorem get?_foldl_recordRun (runs : List Run) (file : RecordFile) (name : String) :
    (runs.foldl recordRun file).get? name = (file.get? name).map fun record =>
      { record with
        runs := (runs.filter fun run => run.scenario = name).foldl (fun m run =>
          m.insert run.strategy (.ofOutcome run.status run.comparison)) record.runs } := by
  induction runs generalizing file with
  | nil => simp
  | cons run rest ih =>
    rw [List.foldl_cons, ih, get?_recordRun, Option.map_map, List.filter_cons]
    by_cases h : run.scenario = name <;> simp [h, Function.comp_def]

end Evaluation

namespace Pass.Trial
variable {t : Trial} {k : Nat} {scenario : Scenario} {entrant : Entrant Id}

def bareRecord (scenario : Scenario) : Record := ⟨some scenario.label.name, ∅⟩

def recordedOf (t : Trial) (scenario : Scenario) (entrant : Entrant Id) : RecordedRun :=
  .ofOutcome (t.runOf scenario entrant).status (t.runOf scenario entrant).comparison

def fullRecord (t : Trial) (scenario : Scenario) : Record :=
  ⟨some scenario.label.name,
    .ofList (t.entrants.map fun entrant => (entrant.name, t.recordedOf scenario entrant))⟩

def recordFile (t : Trial) (k : Nat) : RecordFile where
  toList := (t.corpus.scenarios.take k).map (fun scenario => (scenario.name, t.fullRecord scenario))
    ++ (t.corpus.scenarios.drop k).map fun scenario => (scenario.name, bareRecord scenario)
  ascending := by
    have hnames : ((t.corpus.scenarios.take k).map (fun scenario =>
        (scenario.name, t.fullRecord scenario)) ++ (t.corpus.scenarios.drop k).map fun scenario =>
        (scenario.name, bareRecord scenario)).map Prod.fst = t.corpus.names := by
      rw [List.map_append, List.map_map, List.map_map]
      simp only [Function.comp_def]
      rw [← List.map_append, List.take_append_drop, Corpus.names]
    rw [hnames]
    exact t.corpus.names_ascending

theorem get?_labelRecords (c : Corpus) (name : String) :
    (Evaluation.labelRecords c).get? name =
      (c.scenarios.find? fun scenario => scenario.name = name).map bareRecord := by
  have hkeys : ((c.scenarios.map fun scenario =>
      (scenario.name, bareRecord scenario)).map Prod.fst).Nodup := by
    rw [List.map_map]
    exact c.nodup_names
  exact (NameMap.get?_ofList hkeys name).trans (NameMap.find_map_name ..)

theorem filter_runs (t : Trial) (k : Nat) (name : String) :
    (t.outcome k).runs.filter (fun run => run.scenario = name) =
      ((t.corpus.scenarios.take k).filter fun scenario => scenario.name = name).flatMap
        fun scenario => t.entrants.map fun entrant => t.runOf scenario entrant := by
  rw [outcome, pairs, List.map_flatMap, List.filter_flatMap]
  induction t.corpus.scenarios.take k with
  | nil => rfl
  | cons scenario rest ih =>
    rw [List.flatMap_cons, ih, List.filter_cons]
    by_cases h : scenario.name = name <;>
      simp [h, List.filter_map, Function.comp_def, scenario_runOf]

theorem filter_scenario {xs : List Scenario} (hnodup : (xs.map (·.name)).Nodup) (name : String) :
    (xs.filter fun scenario => scenario.name = name) =
      (xs.find? fun scenario => scenario.name = name).toList := by
  induction xs with
  | nil => rfl
  | cons scenario rest ih =>
    obtain ⟨hnew, hrest⟩ := List.nodup_cons.1 hnodup
    rw [List.filter_cons, List.find?_cons, ih hrest]
    by_cases h : scenario.name = name
    · have hnone : (rest.find? fun scenario => scenario.name = name) = none := by
        refine List.find?_eq_none.2 fun other hother heq => hnew ?_
        exact List.mem_map.2 ⟨other, hother, (of_decide_eq_true heq).trans h.symm⟩
      simp [h, hnone]
    · simp [h]

theorem foldl_insert_runs (t : Trial) (scenario : Scenario) :
    (t.entrants.map fun entrant => t.runOf scenario entrant).foldl (fun m run =>
        m.insert run.strategy (.ofOutcome run.status run.comparison)) ∅ =
      NameMap.ofList (t.entrants.map fun entrant =>
        (entrant.name, t.recordedOf scenario entrant)) := by
  rw [NameMap.ofList, List.foldl_map, List.foldl_map]
  simp only [strategy_runOf, recordedOf]
  rfl

theorem toRecords_outcome (t : Trial) (k : Nat) :
    (t.outcome k).toRecords t.corpus = t.recordFile k := by
  ext1 name
  have hsplit : (t.corpus.scenarios.find? fun scenario => scenario.name = name) =
      ((t.corpus.scenarios.take k).find? fun scenario => scenario.name = name).or
        ((t.corpus.scenarios.drop k).find? fun scenario => scenario.name = name) := by
    rw [← List.find?_append, List.take_append_drop]
  have hnodup : ((t.corpus.scenarios.take k).map (·.name)).Nodup :=
    t.corpus.nodup_names.sublist ((List.take_sublist k _).map _)
  have hfile : (t.recordFile k).get? name =
      (((t.corpus.scenarios.take k).find? fun scenario => scenario.name = name).map
        t.fullRecord).or (((t.corpus.scenarios.drop k).find? fun scenario =>
          scenario.name = name).map bareRecord) := by
    rw [NameMap.get?, recordFile, NameMap.find_append, NameMap.find_map_name,
      NameMap.find_map_name]
  rw [Evaluation.toRecords, Evaluation.get?_foldl_recordRun, get?_labelRecords, hsplit, hfile,
    filter_runs, filter_scenario hnodup]
  cases (t.corpus.scenarios.take k).find? fun scenario => scenario.name = name with
  | none =>
    simp only [Option.none_or, Option.map_none, Option.toList_none, List.flatMap_nil,
      List.foldl_nil, Option.map_id_fun', id_eq]
  | some scenario =>
    simp only [Option.some_or, Option.map_some, Option.toList_some, List.flatMap_cons,
      List.flatMap_nil, List.append_nil, fullRecord, bareRecord]
    rw [foldl_insert_runs]

end Pass.Trial
end MergeTrial
