import MergeTrial.Proofs.Metrics.Permutation
import MergeTrial.Proofs.Records.Recording
import MergeTrial.Proofs.Records.RoundTrip

/-! A replay of the recorded results of a pass comes to the same classifications as the pass itself,
and lists the pairs that the pass did not get to as skipped. -/

namespace MergeTrial

theorem RecordedRun.decode_ofOutcome (status : Status) (comparison : Comparison)
    (scenario strategy : String) :
    (ofOutcome status comparison).decode scenario strategy = .ok (status, comparison) := by
  simp only [decode, ofOutcome, Status.ofRecorded?_name, Comparison.ofRecorded?_name]
  rfl

def Classification.untried (scenario : Scenario) (strategy : String) : Classification where
  scenario := scenario.name
  strategy := strategy
  expected := scenario.label
  status := .skipped
  comparison := .notComparable
  predicted := none
  verdict := .error

theorem Classification.make_skipped (policy : Policy) (scenario : Scenario) (strategy : String) :
    make policy scenario.name strategy scenario.label .skipped .notComparable =
      untried scenario strategy := by
  cases h : scenario.label <;> simp [make, untried, Status.predicted, Verdict.judge, h]

theorem Outcome.mapM_flatten_perm {α β : Type} {f : α → Outcome (List β)} {xs : List α}
    {rows : List (List β)}
    (h : List.Forall₂ (fun x row => ∃ bs, f x = .ok bs ∧ bs.Perm row) xs rows) :
    ∃ found, xs.mapM f = .ok found ∧ found.flatten.Perm rows.flatten := by
  induction h with
  | nil => exact ⟨[], rfl, List.Perm.refl _⟩
  | cons hrow _ ih =>
    obtain ⟨bs, hbs, hperm⟩ := hrow
    obtain ⟨found, hfound, hrest⟩ := ih
    refine ⟨bs :: found, ?_, hperm.append hrest⟩
    rw [List.mapM_cons, hbs, hfound]
    rfl

namespace Pass.Trial
variable {t : Trial} {k : Nat} {scenario : Scenario} {entrant : Entrant Id}

theorem label_eq (scenario : Scenario) (runs : NameMap RecordedRun) :
    Record.label ⟨some scenario.label.name, runs⟩ scenario.name = .ok scenario.label := by
  simp only [Record.label, Label.ofName?_name]

theorem classify_bareRecord (policy : Policy) (scenario : Scenario) (strategies : List String) :
    (bareRecord scenario).classify policy strategies scenario.name =
      .ok (strategies.map (Classification.untried scenario)) := by
  rw [Record.classify, bareRecord, label_eq]
  refine Outcome.mapM_eq_ok fun strategy _ => ?_
  rw [← Classification.make_skipped policy]
  rfl

theorem nodup_recorded (t : Trial) (scenario : Scenario) :
    ((t.entrants.map fun entrant =>
      (entrant.name, t.recordedOf scenario entrant)).map Prod.fst).Nodup := by
  rw [List.map_map]
  exact t.nodup_names

theorem outcome_fullRecord (hentrant : entrant ∈ t.entrants) :
    (t.fullRecord scenario).outcome scenario.name entrant.name =
      .ok ((t.runOf scenario entrant).status, (t.runOf scenario entrant).comparison) := by
  have hfound : (t.fullRecord scenario).runs.get? entrant.name =
      some (t.recordedOf scenario entrant) := by
    rw [fullRecord, NameMap.get?_ofList (t.nodup_recorded scenario),
      NameMap.find_eq_some_iff (t.nodup_recorded scenario)]
    exact List.mem_map_of_mem hentrant
  rw [Record.outcome, hfound]
  exact RecordedRun.decode_ofOutcome ..

theorem classify_fullRecord (t : Trial) (policy : Policy) (scenario : Scenario)
    {strategies : List String} (h : strategies.Perm t.names) :
    ∃ row, (t.fullRecord scenario).classify policy strategies scenario.name = .ok row ∧
      row.Perm (t.entrants.map (t.classificationOf policy scenario)) := by
  rw [Record.classify, fullRecord, label_eq, ← fullRecord]
  refine Outcome.mapM_perm h ?_
  rw [names, List.mapM_map]
  refine Outcome.mapM_eq_ok fun entrant hentrant => ?_
  rw [Function.comp_apply, outcome_fullRecord hentrant]
  rfl

def mentioned (t : Trial) (k : Nat) : List String :=
  if (t.outcome k).runs.isEmpty then [] else t.names

theorem mentioned_of_mem (h : scenario ∈ t.corpus.scenarios.take k) :
    t.mentioned k = t.names := by
  unfold mentioned
  split
  · next hnone =>
    have hruns : t.entrants.map (fun entrant => t.runOf scenario entrant) = [] := by
      refine List.eq_nil_iff_forall_not_mem.2 fun run hrun => ?_
      obtain ⟨entrant, hentrant, rfl⟩ := List.mem_map.1 hrun
      have hpair : (scenario, entrant) ∈ t.pairs k :=
        List.mem_flatMap.2 ⟨scenario, h, List.mem_map_of_mem hentrant⟩
      have hmem : t.runOf scenario entrant ∈ (t.outcome k).runs :=
        List.mem_map.2 ⟨(scenario, entrant), hpair, rfl⟩
      rw [List.isEmpty_iff.1 hnone] at hmem
      exact List.not_mem_nil hmem
    rw [names, List.map_eq_nil_iff.1 hruns]
    rfl
  · rfl

theorem mem_keys_fullRecord {strategy : String} :
    strategy ∈ (t.fullRecord scenario).runs.keys ↔ strategy ∈ t.names := by
  rw [← NameMap.get?_ne_none_iff, fullRecord, NameMap.get?_ofList (t.nodup_recorded scenario),
    NameMap.find_ne_none_iff, List.map_map]
  rfl

theorem mem_strategies_recordFile {strategy : String} :
    strategy ∈ RecordFile.strategies (t.recordFile k) ↔
      t.corpus.scenarios.take k ≠ [] ∧ strategy ∈ t.names := by
  simp only [RecordFile.strategies, NameSet.mem_ofList, List.mem_flatMap, recordFile,
    List.mem_append, List.mem_map]
  constructor
  · rintro ⟨_, ⟨scenario, hscenario, rfl⟩ | ⟨scenario, -, rfl⟩, hkey⟩
    · exact ⟨List.ne_nil_of_mem hscenario, mem_keys_fullRecord.1 hkey⟩
    · exact absurd hkey List.not_mem_nil
  · rintro ⟨hne, hname⟩
    obtain ⟨scenario, hscenario⟩ := List.exists_mem_of_ne_nil _ hne
    exact ⟨_, Or.inl ⟨scenario, hscenario, rfl⟩, mem_keys_fullRecord.2 hname⟩

theorem strategies_recordFile (t : Trial) (k : Nat) :
    (RecordFile.strategies (t.recordFile k)).toList.Perm (t.mentioned k) := by
  have hnodup : (t.mentioned k).Nodup := by
    unfold mentioned
    split
    · exact List.nodup_nil
    · exact t.nodup_names
  refine (List.perm_ext_iff_of_nodup (NameSet.nodup_toList _) hnodup).2 fun strategy => ?_
  rw [NameSet.mem_toList, mem_strategies_recordFile]
  constructor
  · rintro ⟨hne, hname⟩
    obtain ⟨scenario, hscenario⟩ := List.exists_mem_of_ne_nil _ hne
    rwa [mentioned_of_mem hscenario]
  · intro hmem
    unfold mentioned at hmem
    split at hmem
    · exact absurd hmem List.not_mem_nil
    · next hsome =>
      refine ⟨fun hnil => hsome ?_, hmem⟩
      rw [outcome, pairs, hnil]
      rfl

def untriedRows (t : Trial) (k : Nat) : List Classification :=
  if (t.outcome k).runs.isEmpty then []
  else (t.corpus.scenarios.drop k).flatMap fun scenario =>
    t.names.map (Classification.untried scenario)

theorem flatMap_mentioned (t : Trial) (k : Nat) :
    (t.corpus.scenarios.drop k).flatMap (fun scenario =>
      (t.mentioned k).map (Classification.untried scenario)) = t.untriedRows k := by
  unfold mentioned untriedRows
  split
  · exact List.flatMap_eq_nil_iff.2 fun _ _ => rfl
  · rfl

theorem classify_recordFile (t : Trial) (policy : Policy) (k : Nat) :
    ∃ cs, RecordFile.classify policy (t.recordFile k) = .ok cs ∧
      cs.Perm ((t.pairs k).map (fun pair => t.classificationOf policy pair.1 pair.2) ++
        t.untriedRows k) := by
  let strategies := (RecordFile.strategies (t.recordFile k)).toList
  have hstrategies : strategies.Perm (t.mentioned k) := t.strategies_recordFile k
  let rows := (t.corpus.scenarios.take k).map (fun scenario =>
      t.entrants.map (t.classificationOf policy scenario)) ++
    (t.corpus.scenarios.drop k).map fun scenario =>
      (t.mentioned k).map (Classification.untried scenario)
  have hrows : List.Forall₂ (fun (entry : String × Record) row => ∃ found,
      entry.2.classify policy strategies entry.1 = .ok found ∧ found.Perm row)
      (t.recordFile k).toList rows := by
    refine List.rel_append ?_ ?_
    · rw [List.forall₂_map_left_iff, List.forall₂_map_right_iff, List.forall₂_same]
      intro scenario hscenario
      rw [mentioned_of_mem hscenario] at hstrategies
      exact t.classify_fullRecord policy scenario hstrategies
    · rw [List.forall₂_map_left_iff, List.forall₂_map_right_iff, List.forall₂_same]
      exact fun scenario _ => ⟨_, classify_bareRecord policy scenario strategies,
        hstrategies.map _⟩
  obtain ⟨found, hfound, hperm⟩ := Outcome.mapM_flatten_perm hrows
  refine ⟨found.flatten, ?_, ?_⟩
  · rw [RecordFile.classify, hfound]
    rfl
  · have hlive : ((t.corpus.scenarios.take k).map fun scenario =>
        t.entrants.map (t.classificationOf policy scenario)).flatten =
        (t.pairs k).map fun pair => t.classificationOf policy pair.1 pair.2 := by
      rw [pairs, List.map_flatMap, List.flatMap_def]
      simp only [List.map_map, Function.comp_def]
    rw [List.flatten_append, hlive, ← List.flatMap_def, flatMap_mentioned] at hperm
    exact hperm

theorem hidesLabel_recordFile (t : Trial) (k : Nat) (h : Record.labelKey ∉ t.names) :
    RecordFile.hidesLabel (t.recordFile k) = false := by
  refine List.any_eq_false.2 fun entry hentry hhides => ?_
  have hkey : Record.labelKey ∈ entry.2.runs.keys :=
    NameMap.get?_ne_none_iff.1 (Option.isSome_iff_ne_none.1 hhides)
  rcases List.mem_append.1 hentry with hentry | hentry
  · obtain ⟨scenario, -, rfl⟩ := List.mem_map.1 hentry
    exact h (mem_keys_fullRecord.1 hkey)
  · obtain ⟨scenario, -, rfl⟩ := List.mem_map.1 hentry
    exact List.not_mem_nil hkey

theorem forall₂_classified (t : Trial) (policy : Policy) (k : Nat) :
    List.Forall₂ (fun run c => ∃ scenario ∈ t.corpus.scenarios, run.scenario = scenario.name ∧
        Classification.ofRun policy scenario run = .ok c)
      (t.outcome k).runs
      ((t.pairs k).map fun pair => t.classificationOf policy pair.1 pair.2) := by
  rw [outcome, List.forall₂_map_left_iff, List.forall₂_map_right_iff, List.forall₂_same]
  rintro ⟨scenario, entrant⟩ hpair
  obtain ⟨found, hscenario, hentrant⟩ := List.mem_flatMap.1 hpair
  obtain ⟨_, -, hpair⟩ := List.mem_map.1 hentrant
  obtain ⟨rfl, rfl⟩ := Prod.mk.inj hpair
  exact ⟨found, List.mem_of_mem_take hscenario, scenario_runOf .., ofRun_runOf ..⟩

end Pass.Trial

/-- Replaying the recorded results of a pass, from memory or from the written file, classifies every
run as the pass itself would under the policy of the replay, and adds a skipped pair for each
strategy and each scenario that the pass did not get to, if it recorded anything at all. -/
theorem replay_agrees_with_pass (t : Pass.Trial) {channel : Option Pass.Channel} {s : Pass.State}
    {e : Evaluation} (hs : t.Reachable channel s) (hcomplete : s.isComplete = true)
    (he : s.result t = .ok e) (policy : Policy) :
    ∃ cs live, RecordFile.classify policy (e.toRecords t.corpus) = .ok cs ∧
      List.Forall₂ (fun run c => ∃ scenario ∈ t.corpus.scenarios, run.scenario = scenario.name ∧
        Classification.ofRun policy scenario run = .ok c) e.runs live ∧
      cs.Perm (live ++ if e.runs.isEmpty then [] else
        (t.corpus.scenarios.drop e.evaluated).flatMap fun scenario =>
          t.names.map (Classification.untried scenario)) ∧
      (e.cancelled = false → policy = t.settings.policy →
        Metrics.compute cs = Metrics.compute e.classifications) ∧
      (∀ path file, RecordFile.read path (RecordFile.write (e.toRecords t.corpus)) = .ok file →
        RecordFile.classify policy file = .ok cs) ∧
      (Record.labelKey ∉ t.names → ∀ path,
        RecordFile.read path (RecordFile.write (e.toRecords t.corpus)) =
          .ok (e.toRecords t.corpus)) := by
  obtain ⟨schedule, hs⟩ := hs
  have hinvariant := Pass.Trial.invariant_of_leads hs
  rw [hinvariant.result_eq hcomplete] at he
  obtain rfl := Except.ok.inj he
  have hle := (hinvariant.placed_of_isComplete hcomplete).1
  generalize s.progress.evaluated = k at hle
  obtain ⟨cs, hcs, hperm⟩ := t.classify_recordFile policy k
  refine ⟨cs, _, ?_, t.forall₂_classified policy k, hperm, ?_, ?_, ?_⟩
  · rw [Pass.Trial.toRecords_outcome, hcs]
  · intro hcancelled hpolicy
    have hsize : k = t.corpus.size :=
      Nat.le_antisymm hle (Nat.le_of_not_lt (of_decide_eq_false hcancelled))
    have hnone : t.untriedRows k = [] := by
      rw [← Pass.Trial.flatMap_mentioned, List.drop_eq_nil_of_le (Nat.le_of_eq hsize.symm)]
      rfl
    rw [hnone, List.append_nil, hpolicy] at hperm
    exact Metrics.compute_perm hperm
      (Classification.consistent_of_nodup (RecordFile.nodup_classify hcs))
  · intro path file hfile
    rw [RecordFile.read_write, Pass.Trial.toRecords_outcome] at hfile
    split at hfile
    · exact nomatch hfile
    · exact Except.ok.inj hfile ▸ hcs
  · intro hlabel path
    rw [RecordFile.read_write, Pass.Trial.toRecords_outcome, t.hidesLabel_recordFile k hlabel]
    rfl

def stoppedSchedule : List Pass.Event :=
  [.advance, .advance, .advance, .advance, .send, .start 0, .finish 0, .start 2, .finish 2,
    .advance, .advance, .join 2, .join 0]

theorem replay_agrees_with_stopped_pass : ∃ s e cs,
    Pass.mixedTrial.Leads (some ⟨true, 0⟩) stoppedSchedule s ∧ s.isComplete = true ∧
      s.result Pass.mixedTrial = .ok e ∧ e.cancelled = true ∧ e.runs.length = 3 ∧
      RecordFile.classify .falsePositive (e.toRecords Pass.mixedTrial.corpus) = .ok cs ∧
      cs.length = 6 := by
  have hdone : (Pass.mixedTrial.execute ⟨.checkpoint 0, 0, 2, [], [], .empty, some ⟨true, 0⟩⟩
      stoppedSchedule).any (fun s => s.isComplete && s.progress.evaluated == 1) = true := by decide
  obtain ⟨s, hrun, hs⟩ := (Option.any_eq_true ..).1 hdone
  obtain ⟨hcomplete, hevaluated⟩ := Bool.and_eq_true_iff.1 hs
  have hleads : Pass.mixedTrial.Leads (some ⟨true, 0⟩) stoppedSchedule s := ⟨_, rfl, hrun⟩
  have hresult := (Pass.Trial.invariant_of_leads hleads).result_eq hcomplete
  rw [eq_of_beq hevaluated] at hresult
  obtain ⟨cs, live, hcs, hlive, hperm, -⟩ :=
    replay_agrees_with_pass Pass.mixedTrial ⟨_, hleads⟩ hcomplete hresult .falsePositive
  have hlength : cs.length = live.length + 3 := hperm.length_eq.trans (List.length_append)
  exact ⟨s, _, cs, hleads, hcomplete, hresult, by decide, by decide, hcs,
    hlength.trans (congrArg (· + 3) (hlive.length_eq.symm.trans (by decide)))⟩

end MergeTrial
