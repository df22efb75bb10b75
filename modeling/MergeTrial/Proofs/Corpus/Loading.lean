import MergeTrial.Proofs.Corpus.Artifacts
import MergeTrial.Proofs.FileTree.Tree
import MergeTrial.Proofs.Records.Replay

/-! The loading of a whole corpus. On a tree of files and directories it succeeds exactly if the
tree holds a corpus, and then yields the only one that the tree describes. -/

namespace MergeTrial

theorem Node.exists_file_of_text {node : Node} {text : String} (hplain : node.Plain)
    (h : node.text = .ok text) : ∃ content mode, node = .file content mode := by
  cases hplain with
  | file => exact ⟨_, _, rfl⟩
  | dir => exact nomatch h

namespace Corpus

theorem ofScenarios_eq_ok_iff {scenarios : List Scenario} {c : Corpus} :
    ofScenarios scenarios = .ok c ↔ (scenarios.map (·.name)).Nodup ∧
      c.byName = .ofList (scenarios.map fun s => (s.name, s)) := by
  rw [ofScenarios, ← NameSet.firstRepeat_eq_none_iff]
  cases NameSet.firstRepeat (scenarios.map (·.name)) with
  | some name => exact ⟨nofun, nofun⟩
  | none =>
    obtain ⟨byName, named⟩ := c
    simp [eq_comm]

theorem exists_ofScenarios {scenarios : List Scenario} (h : (scenarios.map (·.name)).Nodup) :
    ∃ c, ofScenarios scenarios = .ok c := by
  rw [ofScenarios, NameSet.firstRepeat_eq_none_iff.2 h]
  exact ⟨_, rfl⟩

theorem mem_scenarios_iff {scenarios : List Scenario} {c : Corpus}
    (h : ofScenarios scenarios = .ok c) {s : Scenario} : s ∈ c.scenarios ↔ s ∈ scenarios := by
  obtain ⟨hnodup, hc⟩ := ofScenarios_eq_ok_iff.1 h
  have hkeys : ((scenarios.map fun s => (s.name, s)).map Prod.fst).Nodup := by
    rwa [List.map_map]
  have hmem : ∀ entry, entry ∈ c.byName.toList ↔
      entry ∈ scenarios.map fun s => (s.name, s) := fun ⟨name, s⟩ => by
    rw [← NameMap.get?_eq_some_iff, hc, NameMap.get?_ofList hkeys, NameMap.find_eq_some_iff hkeys]
  simp only [Corpus.scenarios, List.mem_map, hmem]
  constructor
  · rintro ⟨_, ⟨s, hs, rfl⟩, rfl⟩
    exact hs
  · exact fun hs => ⟨_, ⟨s, hs, rfl⟩, rfl⟩

theorem labelOf_eq_ok_iff {labels : RecordFile} {name : String} {label : Label} :
    labelOf labels name = .ok label ↔
      ∃ record, labels.get? name = some record ∧ record.expected = some label.name := by
  rw [labelOf]
  cases labels.get? name with
  | none => exact ⟨nofun, nofun⟩
  | some record => simp [Record.label_eq_ok_iff]

section
variable {path : Path} {mode : Nat} {entries listed : List (Bytes × Node)} {fault : Fault}

theorem listDir_dir_eq_ok_iff : listDir path (.dir mode entries) = .ok listed ↔
    Right.read.isIn mode = true ∧ listed = entries := by
  have hallows : (Node.dir mode entries).allows .read = Right.read.isIn mode := rfl
  rw [listDir, hallows]
  cases Right.read.isIn mode with
  | true => simp [Node.entries, eq_comm]
  | false => simp

theorem listDir_dir_eq_error_iff : listDir path (.dir mode entries) = .error fault ↔
    Right.read.isIn mode = false ∧ fault = .unreadable (Bytes.display path) .denied := by
  have hallows : (Node.dir mode entries).allows .read = Right.read.isIn mode := rfl
  rw [listDir, hallows]
  cases Right.read.isIn mode with
  | true => simp
  | false => simp [eq_comm]

end

theorem loadDir_eq_ok_iff {path : Path} {labels : RecordFile} {dir : Bytes} {mode : Nat}
    {inner : List (Bytes × Node)} (hplain : (Node.dir mode inner).Plain) {s : Scenario} :
    loadDir path labels (dir, .dir mode inner) = .ok s ↔ dir = Bytes.ofString s.name ∧
      (∃ record, labels.get? s.name = some record ∧ record.expected = some s.label.name) ∧
      MadeOf (filesOf inner) s := by
  cases hplain with
  | dir hread hsearch hnames hentries =>
    have hlist : ∀ path, listDir path (.dir mode inner) = .ok inner := fun _ =>
      listDir_dir_eq_ok_iff.2 ⟨hread, rfl⟩
    have hsearched : (Node.dir mode inner).allows .execute = true := hsearch
    rw [loadDir, ← Bytes.text?_eq_some_iff, ← labelOf_eq_ok_iff]
    cases dir.text? with
    | none => exact ⟨nofun, nofun⟩
    | some name =>
      rw [Option.some_inj]
      constructor
      · intro h
        obtain ⟨label, hlabel, h⟩ := Outcome.bind_eq_ok.1 h
        obtain ⟨entries, hentries', h⟩ := Outcome.bind_eq_ok.1 h
        obtain rfl := Except.ok.inj ((hlist _).symm.trans hentries')
        rw [if_pos hsearched] at h
        obtain ⟨rfl, rfl, hmade⟩ := (loadScenario_eq_ok_iff hentries hnames).1 h
        exact ⟨rfl, hlabel, hmade⟩
      · rintro ⟨rfl, hlabel, hmade⟩
        refine Outcome.bind_eq_ok.2 ⟨s.label, hlabel, ?_⟩
        refine Outcome.bind_eq_ok.2 ⟨inner, hlist _, ?_⟩
        rw [if_pos hsearched]
        exact (loadScenario_eq_ok_iff hentries hnames).2 ⟨rfl, rfl, hmade⟩

section
variable {path : Path} {mode : Nat} {entries : List (Bytes × Node)}

theorem mem_scenarioDirs_iff {dir : Bytes} {node : Node} :
    (dir, node) ∈ scenarioDirs entries ↔
      ∃ mode inner, node = .dir mode inner ∧ dir.head? ≠ some Path.dot ∧
        (dir, Node.dir mode inner) ∈ entries := by
  rw [scenarioDirs, (List.mergeSort_perm _ _).mem_iff, List.mem_filter, Bool.and_eq_true,
    Bool.not_eq_true']
  constructor
  · rintro ⟨hmem, hdir, hhidden⟩
    cases node with
    | dir mode inner => exact ⟨mode, inner, rfl, fun h => by simp [isHidden, h] at hhidden, hmem⟩
    | _ => exact nomatch hdir
  · rintro ⟨mode, inner, rfl, hhidden, hmem⟩
    exact ⟨hmem, rfl, by simpa [isHidden] using hhidden⟩

theorem nodup_scenarioDirs (hnames : (entries.map Prod.fst).Nodup) :
    ((scenarioDirs entries).map Prod.fst).Nodup :=
  ((List.mergeSort_perm _ _).map Prod.fst).nodup_iff.2
    (hnames.sublist (List.filter_sublist.map Prod.fst))

theorem read_eq_ok_iff {path text : String} {file : RecordFile} :
    RecordFile.read path text = .ok file ↔ ∃ records,
      (Json.read? text).bind RecordFile.entries? = some records ∧
      (records.map Prod.fst).Nodup ∧ file = .ofList records := by
  rw [RecordFile.read]
  cases (Json.read? text).bind RecordFile.entries? with
  | none => exact ⟨nofun, fun ⟨_, h, _⟩ => nomatch h⟩
  | some records =>
    simp only [Option.some_inj, exists_eq_left', ← NameSet.firstRepeat_eq_none_iff]
    cases NameSet.firstRepeat (records.map Prod.fst) with
    | some name => exact ⟨nofun, fun h => nomatch h.1⟩
    | none => simp [eq_comm]

theorem readLabels_dir_eq_ok_iff {file : RecordFile} :
    readLabels path (.dir mode entries) = .ok file ↔ Right.execute.isIn mode = true ∧
      ∃ node text, entries.lookup (Bytes.ofString labelFile) = some node ∧ node.text = .ok text ∧
        RecordFile.read (Bytes.display (path.join (Bytes.ofString labelFile))) text = .ok file := by
  have hallows : (Node.dir mode entries).allows .execute = Right.execute.isIn mode := rfl
  have hchild : (Node.dir mode entries).child? (Bytes.ofString labelFile) =
      entries.lookup (Bytes.ofString labelFile) := rfl
  rw [readLabels, hallows, hchild]
  cases Right.execute.isIn mode with
  | false => exact iff_of_false nofun nofun
  | true =>
    rw [and_iff_right rfl]
    cases entries.lookup (Bytes.ofString labelFile) with
    | none => exact iff_of_false nofun nofun
    | some node =>
      cases htext : node.text with
      | error cause => simp [htext]
      | ok text => simp [htext]

theorem readLabels_eq_ok_iff (hplain : (Node.dir mode entries).Plain) {file : RecordFile} :
    readLabels path (.dir mode entries) = .ok file ↔ ∃ text fileMode records,
      (Bytes.ofString "scenarios.json", Node.file (Bytes.ofString text) fileMode) ∈ entries ∧
      (Json.read? text).bind RecordFile.entries? = some records ∧
      (records.map Prod.fst).Nodup ∧ file = .ofList records := by
  cases hplain with
  | dir _ hsearch hnames hentries =>
    have hlookup : ∀ node, entries.lookup (Bytes.ofString labelFile) = some node ↔
        (Bytes.ofString "scenarios.json", node) ∈ entries := fun _ => lookup_eq_some_iff hnames
    rw [readLabels_dir_eq_ok_iff, and_iff_right hsearch]
    constructor
    · rintro ⟨node, text, hnode, htext, hread⟩
      have hmem := (hlookup node).1 hnode
      obtain ⟨content, fileMode, rfl⟩ := Node.exists_file_of_text (hentries _ hmem) htext
      obtain rfl := (Node.text_file_eq_ok_iff (hentries _ hmem)).1 htext
      obtain ⟨records, hrecords⟩ := read_eq_ok_iff.1 hread
      exact ⟨text, fileMode, records, hmem, hrecords⟩
    · rintro ⟨text, fileMode, records, hmem, hrecords⟩
      exact ⟨_, text, (hlookup _).2 hmem, (Node.text_file_eq_ok_iff (hentries _ hmem)).2 rfl,
        read_eq_ok_iff.2 ⟨records, hrecords⟩⟩

theorem load_dir_eq_ok_iff {c : Corpus} :
    load path (some (.dir mode entries)) = .ok c ↔ Right.read.isIn mode = true ∧
      ∃ labels scenarios, readLabels path (.dir mode entries) = .ok labels ∧
      (scenarioDirs entries).mapM (loadDir path labels) = .ok scenarios ∧
      (∀ key ∈ labels.keys, key ∈ scenarios.map (·.name)) ∧ ofScenarios scenarios = .ok c := by
  have horphan : ∀ (labels : RecordFile) (scenarios : List Scenario),
      (labels.keys.find? fun key => !(scenarios.map (·.name)).contains key) = none ↔
        ∀ key ∈ labels.keys, key ∈ scenarios.map (·.name) := by
    intro labels scenarios
    simp only [List.find?_eq_none, Bool.not_eq_true', Bool.not_eq_false, List.contains_iff_mem]
  rw [load]
  constructor
  · intro h
    obtain ⟨labels, hlabels, h⟩ := Outcome.bind_eq_ok.1 h
    obtain ⟨listed, hlisted, hrest⟩ := Outcome.bind_eq_ok.1 h
    obtain ⟨hread, rfl⟩ := listDir_dir_eq_ok_iff.1 hlisted
    obtain ⟨scenarios, hscenarios, hc⟩ := Outcome.bind_eq_ok.1 hrest
    split at hc
    · exact nomatch hc
    · next hnone =>
      exact ⟨hread, labels, scenarios, hlabels, hscenarios, (horphan _ _).1 hnone, hc⟩
  · rintro ⟨hread, labels, scenarios, hlabels, hscenarios, hkeys, hc⟩
    have hlist : listDir path (.dir mode entries) = .ok entries :=
      listDir_dir_eq_ok_iff.2 ⟨hread, rfl⟩
    refine Outcome.bind_eq_ok.2 ⟨labels, hlabels, Outcome.bind_eq_ok.2 ⟨entries, hlist,
      Outcome.bind_eq_ok.2 ⟨scenarios, hscenarios, ?_⟩⟩⟩
    rw [(horphan labels scenarios).2 hkeys]
    exact hc

theorem load_eq_ok_iff (hplain : (Node.dir mode entries).Plain) {c : Corpus} :
    load path (some (.dir mode entries)) = .ok c ↔ ∃ labels scenarios,
      readLabels path (.dir mode entries) = .ok labels ∧
      (scenarioDirs entries).mapM (loadDir path labels) = .ok scenarios ∧
      (∀ key ∈ labels.keys, key ∈ scenarios.map (·.name)) ∧ ofScenarios scenarios = .ok c := by
  cases hplain with
  | dir hread => rw [load_dir_eq_ok_iff, and_iff_right hread]

theorem files_ofEntries (hnames : (entries.map Prod.fst).Nodup) {dir : Bytes}
    {inner : List (Bytes × Node)} (h : HoldsDir entries dir inner) :
    (Layout.ofEntries entries).files dir = filesOf inner := by
  obtain ⟨hhidden, mode, hmem⟩ := h
  funext role
  ext file
  constructor
  · rintro ⟨inner', ⟨-, mode', hmem'⟩, hfile⟩
    have hsame := List.inj_on_of_nodup_map hnames hmem hmem' rfl
    obtain ⟨-, rfl⟩ := Node.dir.inj (Prod.mk.inj hsame).2
    exact hfile
  · exact fun hfile => ⟨inner, ⟨hhidden, mode, hmem⟩, hfile⟩

theorem loadDir_scenarioDirs_iff (hplain : (Node.dir mode entries).Plain)
    {records : List (String × Record)} (hkeys : (records.map Prod.fst).Nodup)
    {entry : Bytes × Node} (hentry : entry ∈ scenarioDirs entries) {s : Scenario} :
    loadDir path (.ofList records) entry = .ok s ↔ entry.1 = Bytes.ofString s.name ∧
      (∃ record, (s.name, record) ∈ records ∧ record.expected = some s.label.name) ∧
      MadeOf ((Layout.ofEntries entries).files entry.1) s := by
  obtain ⟨dir, node⟩ := entry
  obtain ⟨innerMode, inner, rfl, hhidden, hmem⟩ := mem_scenarioDirs_iff.1 hentry
  cases hplain with
  | dir _ _ hnames hentries =>
    rw [loadDir_eq_ok_iff (hentries _ hmem), files_ofEntries hnames ⟨hhidden, innerMode, hmem⟩]
    simp only [NameMap.get?_ofList_eq_some_iff hkeys]

theorem exists_mem_scenarioDirs_iff {dir : Bytes} :
    (∃ node, (dir, node) ∈ scenarioDirs entries) ↔ dir ∈ (Layout.ofEntries entries).dirs := by
  simp only [mem_scenarioDirs_iff]
  constructor
  · rintro ⟨_, mode, inner, -, hhidden, hmem⟩
    exact ⟨inner, hhidden, mode, hmem⟩
  · rintro ⟨inner, hhidden, mode, hmem⟩
    exact ⟨_, mode, inner, rfl, hhidden, hmem⟩

theorem mem_labels_iff {records : List (String × Record)} (hkeys : (records.map Prod.fst).Nodup)
    {s : Scenario}
    (hs : ∃ record, (s.name, record) ∈ records ∧ record.expected = some s.label.name)
    (expected : Option String) :
    (s.name, expected) ∈ records.map (fun entry => (entry.1, entry.2.expected)) ↔
      expected = some s.label.name := by
  obtain ⟨record, hrecord, hlabel⟩ := hs
  constructor
  · intro h
    obtain ⟨⟨name, other⟩, hother, heq⟩ := List.mem_map.1 h
    obtain ⟨rfl, rfl⟩ := Prod.mk.inj heq
    have hsame := List.inj_on_of_nodup_map hkeys hother hrecord rfl
    rwa [(Prod.mk.inj hsame).2]
  · rintro rfl
    exact List.mem_map.2 ⟨_, hrecord, Prod.ext rfl hlabel⟩

section
variable {records : List (String × Record)} {scenarios : List Scenario}

theorem name_of_loadDir {labels : RecordFile} {entry : Bytes × Node} {s : Scenario}
    (h : loadDir path labels entry = .ok s) : entry.1 = Bytes.ofString s.name := by
  rw [loadDir] at h
  cases hname : entry.1.text? with
  | none =>
    rw [hname] at h
    exact nomatch h
  | some name =>
    rw [hname] at h
    obtain ⟨label, -, h⟩ := Outcome.bind_eq_ok.1 h
    obtain ⟨inner, -, h⟩ := Outcome.bind_eq_ok.1 h
    rw [(name_label_of_loadScenario h).1]
    exact Bytes.text?_eq_some_iff.1 hname

theorem map_name_of_loadDirs {labels : RecordFile}
    (h : (scenarioDirs entries).mapM (loadDir path labels) = .ok scenarios) :
    (scenarios.map (·.name)).map Bytes.ofString = (scenarioDirs entries).map Prod.fst := by
  rw [List.map_map]
  exact Outcome.map_of_mapM_eq_ok h fun entry _ s hs => (name_of_loadDir hs).symm

theorem mem_dirs_iff_of_loadDirs {labels : RecordFile}
    (h : (scenarioDirs entries).mapM (loadDir path labels) = .ok scenarios) {dir : Bytes} :
    dir ∈ (Layout.ofEntries entries).dirs ↔
      ∃ name ∈ scenarios.map (·.name), dir = Bytes.ofString name := by
  have hdirs : dir ∈ (Layout.ofEntries entries).dirs ↔
      dir ∈ (scenarioDirs entries).map Prod.fst := by
    simp only [← exists_mem_scenarioDirs_iff, List.mem_map, Prod.exists, exists_and_right,
      exists_eq_right]
  rw [hdirs, ← map_name_of_loadDirs h, List.mem_map]
  simp only [eq_comm]

theorem nodup_names_of_loadDirs (hnames : (entries.map Prod.fst).Nodup) {labels : RecordFile}
    (h : (scenarioDirs entries).mapM (loadDir path labels) = .ok scenarios) :
    (scenarios.map (·.name)).Nodup := by
  have hdirs := nodup_scenarioDirs hnames
  rw [← map_name_of_loadDirs h] at hdirs
  exact List.Nodup.of_map _ hdirs

theorem described_of_loadDirs (hplain : (Node.dir mode entries).Plain)
    (hkeys : (records.map Prod.fst).Nodup)
    (h : (scenarioDirs entries).mapM (loadDir path (.ofList records)) = .ok scenarios)
    {s : Scenario} (hs : s ∈ scenarios) :
    (∃ record, (s.name, record) ∈ records ∧ record.expected = some s.label.name) ∧
      MadeOf ((Layout.ofEntries entries).files (Bytes.ofString s.name)) s := by
  obtain ⟨entry, hentry, hload⟩ := (Outcome.mem_of_mapM_eq_ok h).2 s hs
  obtain ⟨hname, hdescribed⟩ := (loadDir_scenarioDirs_iff hplain hkeys hentry).1 hload
  rwa [hname] at hdescribed

theorem exists_loadDir (path : Path) (hplain : (Node.dir mode entries).Plain)
    (h : (Layout.ofEntries entries).IsCorpus
      (records.map fun entry => (entry.1, entry.2.expected)))
    (hkeys : (records.map Prod.fst).Nodup) {entry : Bytes × Node}
    (hentry : entry ∈ scenarioDirs entries) :
    ∃ s, loadDir path (.ofList records) entry = .ok s := by
  have hdir := exists_mem_scenarioDirs_iff.1 ⟨entry.2, hentry⟩
  obtain ⟨key, hkey, hname⟩ := (h.dirs entry.1).1 hdir
  rw [List.map_map] at hkey
  obtain ⟨⟨key, record⟩, hrecord, rfl⟩ := List.mem_map.1 hkey
  obtain ⟨label, hlabel⟩ : ∃ label : Label, record.expected = some label.name := by
    rcases h.valid _ (List.mem_map_of_mem hrecord) with hconflict | hsuccess
    · exact ⟨.conflict, hconflict⟩
    · exact ⟨.success, hsuccess⟩
  obtain ⟨s, rfl, rfl, hmade⟩ := (h.complete entry.1 hdir).exists_madeOf key label
  exact ⟨s, (loadDir_scenarioDirs_iff hplain hkeys hentry).2
    ⟨hname, ⟨record, hrecord, hlabel⟩, hmade⟩⟩

end

theorem describes_of_load (hplain : (Node.dir mode entries).Plain) {c : Corpus}
    (h : load path (some (.dir mode entries)) = .ok c) :
    ∃ labels, (Layout.ofEntries entries).IsCorpus labels ∧
      (Layout.ofEntries entries).Describes labels c := by
  obtain ⟨file, scenarios, hfile, hscenarios, hkeys, hc⟩ := (load_eq_ok_iff hplain).1 h
  obtain ⟨text, fileMode, records, hmem, hdecode, hnodup, rfl⟩ :=
    (readLabels_eq_ok_iff hplain).1 hfile
  have hdescribed : ∀ s ∈ c.scenarios, _ := fun s hs =>
    described_of_loadDirs hplain hnodup hscenarios ((mem_scenarios_iff hc).1 hs)
  have hnames : ∀ name, name ∈ c.names ↔ name ∈ scenarios.map (·.name) := fun name => by
    simp only [names, List.mem_map, mem_scenarios_iff hc]
  have hdescribes : (Layout.ofEntries entries).Describes
      (records.map fun entry => (entry.1, entry.2.expected)) c := {
    stated := ⟨text, fileMode, records, hmem, hdecode, rfl⟩
    ascending := c.names_ascending
    names := fun name => by
      rw [List.map_map]
      constructor
      · intro hname
        obtain ⟨s, hs, rfl⟩ := List.mem_map.1 hname
        obtain ⟨record, hrecord, -⟩ := (hdescribed s hs).1
        exact List.mem_map_of_mem hrecord
      · exact fun hname => (hnames name).2 (hkeys name (NameMap.mem_keys_ofList.2 hname))
    labelled := fun s hs => mem_labels_iff hnodup (hdescribed s hs).1
    madeOf := fun s hs => (hdescribed s hs).2 }
  refine ⟨_, hdescribes.isCorpus (by rwa [List.map_map]) fun dir => ?_, hdescribes⟩
  rw [mem_dirs_iff_of_loadDirs hscenarios]
  simp only [← hnames, names, List.mem_map, exists_exists_and_eq_and]

theorem exists_load (path : Path) (hplain : (Node.dir mode entries).Plain)
    {labels : List (String × Option String)} (h : (Layout.ofEntries entries).IsCorpus labels) :
    ∃ c, load path (some (.dir mode entries)) = .ok c := by
  obtain ⟨text, fileMode, records, hmem, hdecode, rfl⟩ := h.stated
  have hnodup : (records.map Prod.fst).Nodup := by
    have hnodup := h.nodup
    rwa [List.map_map] at hnodup
  have hfile : readLabels path (.dir mode entries) = .ok (.ofList records) :=
    (readLabels_eq_ok_iff hplain).2 ⟨text, fileMode, records, hmem, hdecode, hnodup, rfl⟩
  obtain ⟨scenarios, hscenarios⟩ := Outcome.exists_mapM_eq_ok fun entry hentry =>
    exists_loadDir path hplain h hnodup hentry
  have hdistinct : (scenarios.map (·.name)).Nodup := by
    cases hplain with
    | dir _ _ hnames => exact nodup_names_of_loadDirs hnames hscenarios
  have hkeys : ∀ key ∈ (NameMap.ofList records).keys, key ∈ scenarios.map (·.name) := by
    intro key hkey
    have hkey := NameMap.mem_keys_ofList.1 hkey
    have hdir := (h.dirs (Bytes.ofString key)).2 ⟨key, by rwa [List.map_map], rfl⟩
    obtain ⟨name, hname, heq⟩ := (mem_dirs_iff_of_loadDirs hscenarios).1 hdir
    exact Bytes.ofString_inj.1 heq ▸ hname
  obtain ⟨c, hc⟩ := exists_ofScenarios hdistinct
  exact ⟨c, (load_eq_ok_iff hplain).2 ⟨_, scenarios, hfile, hscenarios, hkeys, hc⟩⟩

theorem load_toOption_eq {path' : Path} {mode' : Nat} {entries' : List (Bytes × Node)}
    (hplain : (Node.dir mode entries).Plain) (hplain' : (Node.dir mode' entries').Plain)
    (hlayout : Layout.ofEntries entries = Layout.ofEntries entries') :
    (load path (some (.dir mode entries))).toOption =
      (load path' (some (.dir mode' entries'))).toOption := by
  have hnames : (entries.map Prod.fst).Nodup := by
    cases hplain with
    | dir _ _ hnames => exact hnames
  -- both corpora are described by the one layout, which states only one list of labels
  cases h : load path (some (.dir mode entries)) with
  | ok c =>
    obtain ⟨labels, hcorpus, hdescribes⟩ := describes_of_load hplain h
    rw [hlayout] at hcorpus
    obtain ⟨c', h'⟩ := exists_load path' hplain' hcorpus
    obtain ⟨labels', -, hdescribes'⟩ := describes_of_load hplain' h'
    rw [← hlayout] at hdescribes'
    obtain rfl := Layout.subsingleton_labels hnames hdescribes.stated hdescribes'.stated
    rw [h', hdescribes.unique hdescribes']
  | error fault =>
    cases h' : load path' (some (.dir mode' entries')) with
    | error => rfl
    | ok c' =>
      obtain ⟨labels, hcorpus, -⟩ := describes_of_load hplain' h'
      rw [← hlayout] at hcorpus
      obtain ⟨c, hc⟩ := exists_load path hplain hcorpus
      exact nomatch h.symm.trans hc

end

/-- On files and directories, loading succeeds exactly if there is a corpus and yields the one that
is described. Whatever is not part of the layout has no influence. -/
theorem load_exact (path : Path) (root : Option Node)
    (hplain : ∀ node, root = some node → node.Plain) :
    ((∃ c, load path root = .ok c) ↔ ∃ mode entries labels,
      root = some (.dir mode entries) ∧ (Layout.ofEntries entries).IsCorpus labels) ∧
    (∀ c, load path root = .ok c → ∃ mode entries labels, root = some (.dir mode entries) ∧
      (Layout.ofEntries entries).IsCorpus labels ∧
      (Layout.ofEntries entries).Describes labels c) ∧
    ∀ path' mode entries mode' entries', root = some (.dir mode entries) →
      (Node.dir mode' entries').Plain →
      Layout.ofEntries entries = Layout.ofEntries entries' →
      (load path root).toOption = (load path' (some (.dir mode' entries'))).toOption := by
  have hdescribes : ∀ c, load path root = .ok c → ∃ mode entries labels,
      root = some (.dir mode entries) ∧ (Layout.ofEntries entries).IsCorpus labels ∧
      (Layout.ofEntries entries).Describes labels c := by
    intro c hc
    match root, hplain, hc with
    | some (.dir mode entries), hplain, hc =>
      obtain ⟨labels, h⟩ := describes_of_load (hplain _ rfl) hc
      exact ⟨mode, entries, labels, rfl, h⟩
  refine ⟨⟨fun ⟨c, hc⟩ => ?_, ?_⟩, hdescribes, ?_⟩
  · obtain ⟨mode, entries, labels, hroot, hcorpus, -⟩ := hdescribes c hc
    exact ⟨mode, entries, labels, hroot, hcorpus⟩
  · rintro ⟨mode, entries, labels, rfl, hcorpus⟩
    exact exists_load path (hplain _ rfl) hcorpus
  · rintro path' mode entries mode' entries' rfl hplain' hlayout
    exact load_toOption_eq (hplain _ rfl) hplain' hlayout

def oneScenario : List (Bytes × Node) :=
  let file (name text : String) : Bytes × Node :=
    (Bytes.ofString name, .file (Bytes.ofString text) 0o644)
  let labels := RecordFile.write (.ofList [("S", ⟨some "CONFLICT", .ofList [("A", ⟨none, none⟩)]⟩)])
  [file "left.c" "beside the directory",
    (Bytes.ofString "S", .dir 0o755 [file "right" "r", file "base.tar.gz" "b",
      (Bytes.ofString "left", .dir 0o755 [file "left" "nested"]), file "left." "l", file "x" ""]),
    (Bytes.ofString ".git", .dir 0o755 [file "left" "hidden"]),
    file "scenarios.json" labels]

theorem plain_oneScenario : (Node.dir 0o755 oneScenario).Plain := by
  have hfile : ∀ content, (Node.file content 0o644).Plain := fun _ => .file (by decide)
  have hdir : ∀ {entries : List (Bytes × Node)}, (entries.map Prod.fst).Nodup →
      (∀ entry ∈ entries, entry.2.Plain) → (Node.dir 0o755 entries).Plain :=
    .dir (by decide) (by decide)
  refine hdir (by decide +kernel) ?_
  simp only [oneScenario, List.forall_mem_cons, hfile, true_and]
  refine ⟨hdir (by decide +kernel) ?_, hdir (by decide +kernel) ?_, nofun⟩
  · simp only [List.forall_mem_cons, hfile, true_and]
    exact ⟨hdir (by decide +kernel) (by simp [hfile]), nofun⟩
  · simp [hfile]

theorem load_oneScenario :
    (∃ c labels, load (Bytes.ofString "c") (some (.dir 0o755 oneScenario)) = .ok c ∧
      (Layout.ofEntries oneScenario).IsCorpus labels ∧
      (Layout.ofEntries oneScenario).Describes labels c) ∧
    (load (Bytes.ofString "c") (some (.dir 0o755 oneScenario))).toOption =
      (load (Bytes.ofString "d") (some (.dir 0o755 oneScenario.reverse))).toOption := by
  obtain ⟨-, hdescribes, hlayout⟩ := load_exact (Bytes.ofString "c")
    (some (.dir 0o755 oneScenario)) fun node h => Option.some.inj h ▸ plain_oneScenario
  have hloads : (load (Bytes.ofString "c") (some (.dir 0o755 oneScenario))).isOk = true := by
    decide +kernel
  have hreverse := (List.reverse_perm oneScenario).symm
  constructor
  · cases h : load (Bytes.ofString "c") (some (.dir 0o755 oneScenario)) with
    | error => exact nomatch h ▸ hloads
    | ok c =>
      obtain ⟨_, _, labels, hroot, hcorpus⟩ := hdescribes c h
      obtain ⟨-, rfl⟩ := Node.dir.inj (Option.some.inj hroot)
      exact ⟨c, labels, rfl, hcorpus⟩
  · refine hlayout _ _ _ _ _ rfl ?_ (Layout.ofEntries_perm hreverse)
    cases plain_oneScenario with
    | dir hread hsearch hnames hentries =>
      exact .dir hread hsearch ((hreverse.map Prod.fst).nodup_iff.1 hnames) fun entry hentry =>
        hentries entry (hreverse.mem_iff.2 hentry)

end Corpus
end MergeTrial
