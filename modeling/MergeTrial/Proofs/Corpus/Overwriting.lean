import MergeTrial.Proofs.Corpus.Loading
import MergeTrial.Proofs.FileTree.Tree
import MergeTrial.Proofs.Pass.Determinacy
import MergeTrial.Proofs.Records.Recording
import MergeTrial.Proofs.Records.RoundTrip

/-! Results that are written over the labels of a corpus. The file of a pass gives every scenario,
whether the pass got to it or not, the label that the scenario had, and names no other; so the
corpus is loaded as before. -/

namespace MergeTrial

namespace Node
variable {name : Bytes} {node : Node} {entries : List (Bytes × Node)}

theorem filter_putEntry {p : Bytes × Node → Bool} (hnew : p (name, node) = false)
    (hold : ∀ old, entries.lookup name = some old → p (name, old) = false)
    (hthere : entries.lookup name ≠ none) :
    (putEntry name (some node) entries).filter p = entries.filter p := by
  induction entries with
  | nil => exact absurd rfl hthere
  | cons entry rest ih =>
    obtain ⟨key, old⟩ := entry
    rw [putEntry]
    split
    · next hkey =>
      subst hkey
      simp [hnew, hold old (by simp)]
    · next hkey =>
      simp only [List.lookup_cons, beq_eq_false_iff_ne.2 (Ne.symm hkey)] at hold hthere
      rw [List.filter_cons, List.filter_cons, ih hold hthere]

theorem isDir_eq_false_of_text {node : Node} {text : String} (h : node.text = .ok text) :
    node.isDir = false := by
  cases node with
  | dir => exact nomatch h
  | file => rfl
  | special => rfl

end Node

/-- The file gives every scenario of the corpus its label, and names nothing else. -/
structure RecordFile.Labels (file : RecordFile) (c : Corpus) : Prop where
  stated : ∀ s ∈ c.scenarios, ∃ record,
    file.get? s.name = some record ∧ record.expected = some s.label.name
  known : ∀ key ∈ NameMap.keys file, key ∈ c.names

namespace Evaluation

/-- Whatever was evaluated, and however far, the labels are those of the corpus. -/
theorem labels_toRecords (e : Evaluation) (c : Corpus) : RecordFile.Labels (e.toRecords c) c := by
  constructor
  · intro s hs
    have hfind : c.scenarios.find? (fun other => other.name = s.name) = some s := by
      rw [← Option.mem_toList, ← Pass.Trial.filter_scenario c.nodup_names]
      exact List.mem_filter.2 ⟨hs, decide_eq_true rfl⟩
    rw [toRecords, get?_foldl_recordRun, Pass.Trial.get?_labelRecords, hfind]
    exact ⟨_, rfl, rfl⟩
  · intro key hkey
    rw [← NameMap.get?_ne_none_iff, toRecords, get?_foldl_recordRun, Pass.Trial.get?_labelRecords,
      Option.map_map, ne_eq, Option.map_eq_none_iff] at hkey
    obtain ⟨s, hs⟩ := Option.ne_none_iff_exists'.1 hkey
    have hname := List.find?_some hs
    exact List.mem_map.2 ⟨s, List.mem_of_find?_eq_some hs, of_decide_eq_true hname⟩

theorem hidesLabel_toRecords {e : Evaluation} (h : ∀ run ∈ e.runs, run.strategy ≠ Record.labelKey)
    (c : Corpus) : RecordFile.hidesLabel (e.toRecords c) = false := by
  refine Bool.eq_false_iff.2 fun hhides => ?_
  obtain ⟨name, record, recorded, hrecord, hrecorded⟩ := RecordFile.hidesLabel_iff.1 hhides
  rw [toRecords, get?_foldl_recordRun, Pass.Trial.get?_labelRecords, Option.map_map] at hrecord
  obtain ⟨s, -, rfl⟩ := Option.map_eq_some_iff.1 hrecord
  have hruns : ∀ runs : List Run, runs.foldl (fun m run =>
      m.insert run.strategy (.ofOutcome run.status run.comparison)) ∅ = NameMap.ofList
        (runs.map fun run => (run.strategy, RecordedRun.ofOutcome run.status run.comparison)) := by
    intro runs
    rw [NameMap.ofList, List.foldl_map]
    rfl
  simp only [Function.comp_apply, Pass.Trial.bareRecord, hruns] at hrecorded
  have hmem := NameMap.mem_ofList (NameMap.get?_eq_some_iff.1 hrecorded)
  obtain ⟨run, hrun, heq⟩ := List.mem_map.1 hmem
  exact h run (List.mem_of_mem_filter hrun) (Prod.mk.inj heq).1

end Evaluation

namespace Corpus
variable {path : Path} {mode fileMode : Nat} {entries : List (Bytes × Node)} {c : Corpus}
  {labels labels' : RecordFile} {s : Scenario}

theorem scenarioDirs_putEntry {name : Bytes} {old node : Node}
    (hold : entries.lookup name = some old) (hdir : old.isDir = false) (hnew : node.isDir = false) :
    scenarioDirs (Node.putEntry name (some node) entries) = scenarioDirs entries := by
  have hfilter : (Node.putEntry name (some node) entries).filter
      (fun entry => entry.2.isDir && !isHidden entry.1) =
      entries.filter fun entry => entry.2.isDir && !isHidden entry.1 := by
    refine Node.filter_putEntry (by rw [hnew, Bool.false_and]) (fun other hother => ?_) ?_
    · obtain rfl := Option.some.inj (hold.symm.trans hother)
      rw [hdir, Bool.false_and]
    · exact hold ▸ Option.some_ne_none old
  rw [scenarioDirs, hfilter, scenarioDirs]

theorem loadDir_relabel {entry : Bytes × Node} (h : loadDir path labels entry = .ok s)
    (hlabel : labelOf labels' s.name = .ok s.label) : loadDir path labels' entry = .ok s := by
  unfold loadDir at h ⊢
  cases hname : entry.1.text? with
  | none => rw [hname] at h; exact nomatch h
  | some name =>
    rw [hname] at h
    obtain ⟨label, hold, h⟩ := Outcome.bind_eq_ok.1 h
    obtain ⟨inner, hinner, h⟩ := Outcome.bind_eq_ok.1 h
    obtain ⟨rfl, rfl⟩ := name_label_of_loadScenario h
    exact Outcome.bind_eq_ok.2 ⟨s.label, hlabel, Outcome.bind_eq_ok.2 ⟨inner, hinner, h⟩⟩

theorem load_putEntry_labels {text : String} (h : load path (some (.dir mode entries)) = .ok c)
    (hread : ∀ shown, RecordFile.read shown text = .ok labels) (hlabels : labels.Labels c)
    (hmode : Right.read.isIn fileMode = true) :
    load path (some (.dir mode (Node.putEntry (Bytes.ofString labelFile)
      (some (.file (Bytes.ofString text) fileMode)) entries))) = .ok c := by
  obtain ⟨hlist, old, scenarios, hold, hscenarios, -, hc⟩ := load_dir_eq_ok_iff.1 h
  obtain ⟨hsearch, node, oldText, hnode, hoptText, -⟩ := readLabels_dir_eq_ok_iff.1 hold
  refine load_dir_eq_ok_iff.2 ⟨hlist, labels, scenarios, ?_, ?_, ?_, hc⟩
  · exact readLabels_dir_eq_ok_iff.2 ⟨hsearch, _, text, Node.lookup_putEntry ..,
      (Node.text_file_eq_ok_iff (.file hmode)).2 rfl, hread _⟩
  · rw [scenarioDirs_putEntry hnode (Node.isDir_eq_false_of_text hoptText) rfl]
    have hsame := Outcome.mapM_of_mapM_eq_ok (k := id) (g := loadDir path labels) hscenarios ?_
    · rwa [List.map_id] at hsame
    · intro entry hentry s hs
      obtain ⟨s', hs', hload⟩ := (Outcome.mem_of_mapM_eq_ok hscenarios).1 entry hentry
      obtain rfl := Except.ok.inj (hs.symm.trans hload)
      have hlabel := hlabels.stated s ((mem_scenarios_iff hc).2 hs')
      exact loadDir_relabel hs (labelOf_eq_ok_iff.2 hlabel)
  · intro key hkey
    obtain ⟨s, hs, rfl⟩ := List.mem_map.1 (hlabels.known key hkey)
    exact List.mem_map_of_mem ((mem_scenarios_iff hc).1 hs)

def withLabels (text : String) (fileMode : Nat) (root : Node) : Node :=
  root.put (some (.file (Bytes.ofString text) fileMode)) [Bytes.ofString labelFile]

theorem load_withLabels_toRecords {root : Option Node} (h : load path root = .ok c) {e : Evaluation}
    (hruns : ∀ run ∈ e.runs, run.strategy ≠ "expected") (hmode : Right.read.isIn fileMode = true) :
    load path (root.map (withLabels (RecordFile.write (e.toRecords c)) fileMode)) = .ok c := by
  match root, h with
  | some (.dir mode entries), h =>
    refine load_putEntry_labels h (fun shown => ?_) (e.labels_toRecords c) hmode
    rw [RecordFile.read_write, Evaluation.hidesLabel_toRecords hruns]
    rfl

end Corpus

/-- The results of every complete pass over a loaded corpus, stopped or not, may be written over
the labels of the corpus: the same corpus is loaded again. -/
theorem load_over_results (path : Path) (root : Option Node) (t : Pass.Trial)
    (hload : Corpus.load path root = .ok t.corpus) (hnames : "expected" ∉ t.names)
    {channel : Option Pass.Channel} {s : Pass.State} (hs : t.Reachable channel s)
    (hcomplete : s.isComplete = true) :
    ∃ e, s.result t = .ok e ∧ ∀ fileMode, Right.read.isIn fileMode = true →
      Corpus.load path (root.map (Corpus.withLabels (RecordFile.write (e.toRecords t.corpus))
        fileMode)) = .ok t.corpus := by
  obtain ⟨schedule, hleads⟩ := hs
  refine ⟨_, (Pass.Trial.invariant_of_leads hleads).result_eq hcomplete, fun fileMode hmode =>
    Corpus.load_withLabels_toRecords hload (fun run hrun heq => ?_) hmode⟩
  exact hnames (heq ▸ Pass.Trial.strategy_mem_names hrun)

def inputFiles : List (Bytes × Node) :=
  [("base.c", "b"), ("left.c", "l"), ("right.c", "r")].map fun file =>
    (Bytes.ofString file.1, .file (Bytes.ofString file.2) 0o644)

def twoLabels : RecordFile :=
  .ofList [("S", ⟨some "CONFLICT", .ofList [("A", ⟨none, none⟩)]⟩), ("T", ⟨some "SUCCESS", ∅⟩)]

def twoDirs : List (Bytes × Node) :=
  let merged := (Bytes.ofString "expected.c", Node.file (Bytes.ofString "m") 0o644)
  [(Bytes.ofString "S", .dir 0o755 inputFiles),
    (Bytes.ofString "T", .dir 0o755 (merged :: inputFiles)),
    (Bytes.ofString "scenarios.json",
      .file (Bytes.ofString (RecordFile.write twoLabels)) 0o644)]

def twoScenarios : List Scenario :=
  [⟨"S", .conflict, "b", "l", "r", none, some "c"⟩,
    ⟨"T", .success, "b", "l", "r", some "m", some "c"⟩]

def twoCorpus : Corpus := (Corpus.ofScenarios twoScenarios).toOption.getD .empty

theorem load_twoDirs (path : Path) :
    Corpus.load path (some (.dir 0o755 twoDirs)) = .ok twoCorpus := by
  have hdirs : Corpus.scenarioDirs twoDirs = twoDirs.take 2 := by
    have hlisted : (twoDirs.filter fun entry => entry.2.isDir && !Corpus.isHidden entry.1) =
        twoDirs.take 2 := rfl
    rw [Corpus.scenarioDirs, hlisted]
    exact List.mergeSort_of_pairwise (by decide +kernel)
  refine Corpus.load_dir_eq_ok_iff.2 ⟨by decide, twoLabels, twoScenarios, ?_, ?_, by decide, rfl⟩
  · have hread : ∀ shown, RecordFile.read shown (RecordFile.write twoLabels) = .ok twoLabels :=
      fun shown => (RecordFile.read_write shown twoLabels).trans (if_neg (by decide))
    exact Corpus.readLabels_dir_eq_ok_iff.2 ⟨by decide, _, _, rfl,
      (Node.text_file_eq_ok_iff (.file (by decide))).2 rfl, hread _⟩
  · rw [hdirs]
    rfl

def loadedTrial : Pass.Trial where
  settings := ⟨100, 1, .separate, none⟩
  registered := [⟨"A", true, fun _ => ⟨0, some (.conflicts "x")⟩⟩,
    ⟨"B", true, fun _ => ⟨0, some (.success "m")⟩⟩, ⟨"C", false, fun _ => ⟨0, none⟩⟩]
  corpus := twoCorpus

def stoppedAfterFirst : List Pass.Event :=
  [.advance, .advance, .start 0, .finish 0, .advance, .start 1, .finish 1, .advance, .send,
    .advance, .advance, .join 0, .join 1]

theorem loadedTrial_load_over_results : ∃ s e,
    loadedTrial.Leads (some ⟨true, 0⟩) stoppedAfterFirst s ∧ s.isComplete = true ∧
    s.result loadedTrial = .ok e ∧ e.cancelled = true ∧ loadedTrial.corpus.names = ["S", "T"] ∧
    e.runs.map (fun run => (run.scenario, run.strategy, run.status)) =
      [("S", "A", .conflicts), ("S", "B", .success), ("S", "C", .skipped)] ∧
    Corpus.load (Bytes.ofString "c") (some (Corpus.withLabels
      (RecordFile.write (e.toRecords loadedTrial.corpus)) 0o644 (.dir 0o755 twoDirs))) =
      .ok loadedTrial.corpus := by
  have hrun : (loadedTrial.execute ⟨.checkpoint 0, 0, 1, [], [], .empty, some ⟨true, 0⟩⟩
      stoppedAfterFirst).any (fun s => s.isComplete && s.progress.evaluated == 1) = true := by
    decide +kernel
  obtain ⟨s, hleads, hs⟩ := Pass.Trial.exists_leads rfl hrun
  obtain ⟨hcomplete, hevaluated⟩ := Bool.and_eq_true_iff.1 hs
  obtain ⟨e, he, hagain⟩ := load_over_results (Bytes.ofString "c") _ loadedTrial
    (load_twoDirs _) (by decide) ⟨_, hleads⟩ hcomplete
  have hresult := (Pass.Trial.invariant_of_leads hleads).result_eq hcomplete
  rw [beq_iff_eq.1 hevaluated] at hresult
  obtain rfl := Except.ok.inj (hresult.symm.trans he)
  exact ⟨s, _, hleads, hcomplete, he, by decide +kernel, by decide +kernel, by decide +kernel,
    hagain 0o644 (by decide)⟩

end MergeTrial
