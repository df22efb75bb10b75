import MergeTrial.Proofs.Metrics.Restriction
import MergeTrial.Proofs.Pass.Restriction
import MergeTrial.Proofs.Records.Replay

/-! Leaving strategies out of a record file, and what leaving them out comes to in general: neither
a pass nor a replay nor the report on a pass says anything else about the strategies that remain. -/

namespace MergeTrial

theorem NameMap.mem_keys_filterKeys {α : Type} {m : NameMap α} {p : String → Bool} {name : String} :
    name ∈ (m.filterKeys p).keys ↔ p name = true ∧ name ∈ m.keys := by
  rw [← get?_ne_none_iff, ← get?_ne_none_iff, get?_filterKeys]
  by_cases h : p name = true
  · simp only [h, if_true, true_and]
  · simp only [h, if_false, false_and, ne_eq, not_true_eq_false, Bool.false_eq_true]

namespace Record

def without (gone : String → Bool) (record : Record) : Record :=
  { record with runs := record.runs.filterKeys fun name => !gone name }

variable {gone : String → Bool} {record : Record} {policy : Policy} {scenario strategy : String}

theorem outcome_without (h : gone strategy = false) :
    (record.without gone).outcome scenario strategy = record.outcome scenario strategy := by
  rw [outcome, without, NameMap.get?_filterKeys, if_pos (by rw [h]; rfl), outcome]

theorem classify_without {strategies : List String} {cs : List Classification}
    (h : record.classify policy strategies scenario = .ok cs) :
    (record.without gone).classify policy (strategies.filter fun name => !gone name) scenario =
      .ok (cs.filter fun c => !gone c.strategy) := by
  obtain ⟨label, hlabel, h⟩ := Outcome.bind_eq_ok.1 h
  refine Outcome.bind_eq_ok.2 ⟨label, hlabel, ?_⟩
  have hkept := Outcome.mapM_filter_eq_ok (p := fun name => !gone name)
    (q := fun c => !gone c.strategy) h fun strategy _ c hc => by
      obtain ⟨_, -, hc⟩ := Outcome.bind_eq_ok.1 hc
      exact Except.ok.inj hc ▸ rfl
  rw [← List.map_id (cs.filter _)]
  refine Outcome.mapM_of_mapM_eq_ok hkept fun strategy hstrategy c hc => ?_
  have hthere : gone strategy = false := by simpa using (List.mem_filter.1 hstrategy).2
  rw [outcome_without hthere]
  exact hc

end Record

namespace RecordFile

/-- The file without any entry of the strategies that are gone. -/
def without (gone : String → Bool) (file : RecordFile) : RecordFile where
  toList := file.toList.map fun entry => (entry.1, entry.2.without gone)
  ascending := by
    rw [List.map_map]
    exact file.ascending

variable {gone : String → Bool} {policy : Policy} {file : RecordFile}

theorem strategies_without : (strategies (file.without gone)).toList =
    (strategies file).toList.filter fun name => !gone name := by
  refine NameSet.eq_of_ascending (NameSet.ascending _) ((NameSet.ascending _).filter _) ?_
  intro name
  rw [List.mem_filter, NameSet.mem_toList, NameSet.mem_toList, strategies, strategies,
    NameSet.mem_ofList, NameSet.mem_ofList, List.mem_flatMap, List.mem_flatMap]
  constructor
  · rintro ⟨_, hmem, hname⟩
    obtain ⟨entry, hentry, rfl⟩ := List.mem_map.1 hmem
    obtain ⟨hkept, hname⟩ := NameMap.mem_keys_filterKeys.1 hname
    exact ⟨⟨entry, hentry, hname⟩, hkept⟩
  · rintro ⟨⟨entry, hentry, hname⟩, hkept⟩
    exact ⟨_, List.mem_map_of_mem hentry, NameMap.mem_keys_filterKeys.2 ⟨hkept, hname⟩⟩

theorem classify_without {cs : List Classification} (h : file.classify policy = .ok cs) :
    (file.without gone).classify policy = .ok (cs.filter fun c => !gone c.strategy) := by
  obtain ⟨rows, hrows, h⟩ := Outcome.bind_eq_ok.1 h
  obtain rfl := Except.ok.inj h
  refine Outcome.bind_eq_ok.2 ⟨rows.map (List.filter fun c => !gone c.strategy), ?_, ?_⟩
  · rw [without, List.mapM_map]
    refine Outcome.mapM_of_mapM_eq_ok hrows fun entry _ row hrow => ?_
    rw [Function.comp_apply, ← without, strategies_without]
    exact Record.classify_without hrow
  · rw [List.filter_flatten]
    rfl

end RecordFile

/-- Selecting strategies for a pass, or deleting others from a record file, restricts what is found
out to these strategies and changes nothing about them: the runs, the classifications and the
report are the parts of the whole that are about them, in the same order. -/
theorem selection_restricts_report :
    (∀ (settings : Settings) (only : List String),
      (∀ name ∈ only, ∃ tool ∈ settings.tools, tool.name = name) →
      ∃ tools, settings.select [] = .ok settings.tools ∧ settings.select only = .ok tools ∧
      ∀ (adapter : ToolSpec → Pass.Entrant Id) (corpus : Corpus),
      (∀ tool, (adapter tool).name = tool.name) →
      let whole : Pass.Trial := ⟨settings.pass, settings.tools.map adapter, corpus⟩
      let part : Pass.Trial := ⟨settings.pass, tools.map adapter, corpus⟩
      let kept : String → Bool := Settings.keeps only
      part.entrants = whole.entrants.filter (fun entrant => kept entrant.name) ∧
      ∀ channel channel' s s', whole.Reachable channel s → s.isComplete = true →
        s.progress.cancelled = false → part.Reachable channel' s' → s'.isComplete = true →
        s'.progress.cancelled = false →
        ∃ e, s.result whole = .ok e ∧ s'.result part = .ok (e.restrict kept) ∧
          Metrics.compute (e.restrict kept).classifications =
            (Metrics.compute e.classifications).restrict kept) ∧
    ∀ (policy : Policy) (file : RecordFile) (gone : String → Bool) (cs : List Classification),
      RecordFile.classify policy file = .ok cs →
      RecordFile.classify policy (RecordFile.without gone file) =
        .ok (cs.filter fun c => !gone c.strategy) := by
  refine ⟨fun settings only honly => ⟨_, settings.select_nil, Settings.select_eq_ok honly, ?_⟩,
    fun _ _ _ _ => RecordFile.classify_without⟩
  intro adapter corpus hadapter whole part kept
  have hpart : part = whole.restrict kept := by
    refine congrArg (Pass.Trial.mk settings.pass · corpus) ?_
    rw [List.filter_map]
    refine congrArg (List.map adapter) (List.filter_congr fun tool _ => ?_)
    rw [Function.comp_apply, hadapter]
  rw [hpart]
  refine ⟨whole.entrants_restrict kept, ?_⟩
  rintro channel channel' s s' ⟨_, h⟩ hcomplete hcancelled ⟨_, h'⟩ hcomplete' hcancelled'
  obtain ⟨e, he, he'⟩ := (Pass.Trial.invariant_of_leads h).result_restrict hcomplete hcancelled
    (Pass.Trial.invariant_of_leads h') hcomplete' hcancelled'
  exact ⟨e, he, he', Metrics.compute_filter kept e.classifications⟩

def fourTools : Settings where
  pass := ⟨100, 2, .separate, none⟩
  log := .default
  tools := [{ ToolSpec.simple "x" [["x"]] with detectMarkers := true }, .simple "y" [],
    .simple "z" [["z"]], .simple "x" []]

def stub (tool : ToolSpec) : Pass.Entrant Id where
  name := tool.name
  available := !tool.candidates.isEmpty
  call := fun _ => ⟨0, if tool.detectMarkers then some (.success "b") else none⟩

def stubTrial (tools : List ToolSpec) : Pass.Trial :=
  ⟨fourTools.pass, tools.map stub, Pass.mixedTrial.corpus⟩

def pairwiseSchedule : List Pass.Event :=
  [.advance, .advance, .advance, .advance, .advance, .start 1, .finish 1, .start 0, .finish 0,
    .advance, .advance, .advance, .advance, .start 2, .start 3, .finish 3, .finish 2, .join 3,
    .join 0, .join 2, .join 1]

def threeRecorded : RecordFile :=
  .ofList [("S1", ⟨some "CONFLICT", .ofList [("x", .ofOutcome .conflicts .notComparable),
      ("y", .ofOutcome .success .differs)]⟩),
    ("S2", ⟨some "SUCCESS", .ofList [("z", .ofOutcome .success .agrees)]⟩)]

theorem selection_of_two_restricts_report :
    (∀ name ∈ ["z", "x"], ∃ tool ∈ fourTools.tools, tool.name = name) ∧
    (∃ tools s s' e, fourTools.select ["z", "x"] = .ok tools ∧
      (stubTrial fourTools.tools).Leads none Pass.reversingSchedule s ∧ s.isComplete = true ∧
      (stubTrial tools).Leads none pairwiseSchedule s' ∧ s'.isComplete = true ∧
      s.result (stubTrial fourTools.tools) = .ok e ∧ e.runs.length = 6 ∧
      s'.result (stubTrial tools) = .ok (e.restrict (Settings.keeps ["z", "x"])) ∧
      (e.restrict (Settings.keeps ["z", "x"])).runs.length = 4) ∧
    ∃ cs, RecordFile.classify .separate threeRecorded = .ok cs ∧ cs.length = 6 ∧
      RecordFile.classify .separate (RecordFile.without (· == "y") threeRecorded) =
        .ok (cs.filter fun c => !c.strategy == "y") := by
  obtain ⟨hselect, hdelete⟩ := selection_restricts_report
  have hconfigured : ∀ name ∈ ["z", "x"], ∃ tool ∈ fourTools.tools, tool.name = name := by decide
  refine ⟨hconfigured, ?_, ?_⟩
  · obtain ⟨tools, -, htools, hpasses⟩ := hselect fourTools ["z", "x"] hconfigured
    obtain rfl : fourTools.tools.filter (fun tool => Settings.keeps ["z", "x"] tool.name) = tools :=
      Except.ok.inj ((Settings.select_eq_ok hconfigured).symm.trans htools)
    obtain ⟨-, hpasses⟩ := hpasses stub Pass.mixedTrial.corpus fun _ => rfl
    have hwhole : ((stubTrial fourTools.tools).execute ⟨.checkpoint 0, 0, 2, [], [], .empty, none⟩
        Pass.reversingSchedule).any (fun s => s.isComplete && !s.progress.cancelled) = true := by
      decide
    have hpart : ((stubTrial (fourTools.tools.filter fun tool =>
        Settings.keeps ["z", "x"] tool.name)).execute ⟨.checkpoint 0, 0, 2, [], [], .empty, none⟩
        pairwiseSchedule).any (fun s => s.isComplete && !s.progress.cancelled) = true := by decide
    obtain ⟨s, hleads, hs⟩ := Pass.Trial.exists_leads rfl hwhole
    obtain ⟨s', hleads', hs'⟩ := Pass.Trial.exists_leads rfl hpart
    obtain ⟨hcomplete, hcancelled⟩ := Bool.and_eq_true_iff.1 hs
    obtain ⟨hcomplete', hcancelled'⟩ := Bool.and_eq_true_iff.1 hs'
    rw [Bool.not_eq_true'] at hcancelled hcancelled'
    obtain ⟨e, he, he', -⟩ := hpasses none none s s' ⟨_, hleads⟩ hcomplete hcancelled
      ⟨_, hleads'⟩ hcomplete' hcancelled'
    have hinvariant := Pass.Trial.invariant_of_leads hleads
    have houtcome := hinvariant.result_eq hcomplete
    rw [hinvariant.evaluated_eq hcomplete hcancelled] at houtcome
    obtain rfl := Except.ok.inj (he.symm.trans houtcome)
    exact ⟨_, s, s', _, htools, hleads, hcomplete, hleads', hcomplete', he, by decide, he',
      by decide⟩
  · have hclassified : (RecordFile.classify .separate threeRecorded >>= fun cs =>
        Except.ok cs.length) = .ok 6 := rfl
    obtain ⟨cs, hcs, hlength⟩ := Outcome.bind_eq_ok.1 hclassified
    exact ⟨cs, hcs, Except.ok.inj hlength, hdelete .separate threeRecorded (· == "y") cs hcs⟩

end MergeTrial
