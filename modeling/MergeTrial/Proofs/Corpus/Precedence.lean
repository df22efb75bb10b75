import MergeTrial.Proofs.Corpus.Checks

/-! Of several defects of a corpus, loading reports the first in a fixed order, however the
directories list their entries. -/

namespace MergeTrial
namespace Corpus
open Outcome

/-! The labels. -/

theorem read_eq_error_iff {path text : String} {fault : Fault} :
    RecordFile.read path text = .error fault ↔
      (Json.read? text).bind RecordFile.entries? = none ∧ fault = .malformedRecords path ∨
      ∃ records before name after, (Json.read? text).bind RecordFile.entries? = some records ∧
        records.map Prod.fst = before ++ name :: after ∧ before.Nodup ∧ name ∈ before ∧
        fault = .repeatedScenario name := by
  rw [RecordFile.read]
  cases (Json.read? text).bind RecordFile.entries? with
  | none => simp [eq_comm]
  | some records =>
    simp only [reduceCtorEq, false_and, false_or, Option.some_inj]
    cases hrepeat : NameSet.firstRepeat (records.map Prod.fst) with
    | none =>
      refine iff_of_false (by simp) ?_
      rintro ⟨_, before, name, after, rfl, hsplit, hnodup, hmem, -⟩
      have hsome := NameSet.firstRepeat_eq_some_iff.2 ⟨before, after, hsplit, hnodup, hmem⟩
      cases hrepeat.symm.trans hsome
    | some name =>
      obtain ⟨before, after, hsplit, hnodup, hmem⟩ := NameSet.firstRepeat_eq_some_iff.1 hrepeat
      constructor
      · intro h
        exact ⟨records, before, name, after, rfl, hsplit, hnodup, hmem, (Except.error.inj h).symm⟩
      · rintro ⟨_, before', name', after', rfl, hsplit', hnodup', hmem', rfl⟩
        have hsome := NameSet.firstRepeat_eq_some_iff.2 ⟨before', after', hsplit', hnodup', hmem'⟩
        rw [Option.some.inj (hrepeat.symm.trans hsome)]

section
variable {path : Path} {mode : Nat} {entries : List (Bytes × Node)} {labels labels' : RecordFile}
  {fault fault' : Fault} (hnames : (entries.map Prod.fst).Nodup)
include hnames

theorem readLabels_eq_ok_iff_labelled :
    readLabels path (.dir mode entries) = .ok labels ↔ Labelled mode entries labels := by
  rw [readLabels_dir_eq_ok_iff]
  simp only [lookup_eq_some_iff hnames, read_eq_ok_iff]
  constructor
  · rintro ⟨hsearch, node, text, hmem, htext, records, hrecords⟩
    exact ⟨text, records, ⟨hsearch, node, hmem, htext⟩, hrecords⟩
  · rintro ⟨text, records, ⟨hsearch, node, hmem, htext⟩, hrecords⟩
    exact ⟨hsearch, node, text, hmem, htext, records, hrecords⟩

theorem readLabels_of_labelText {text : String} (h : LabelText mode entries text) :
    readLabels path (.dir mode entries) =
      RecordFile.read (shown path (Bytes.ofString labelFile)) text := by
  obtain ⟨hsearch, node, hmem, htext⟩ := h
  have hallows : (Node.dir mode entries).allows .execute = true := hsearch
  have hchild : (Node.dir mode entries).child? (Bytes.ofString labelFile) = some node :=
    (lookup_eq_some_iff hnames).2 hmem
  simp only [readLabels, hallows, hchild, htext]
  rfl

theorem readLabels_eq_error_iff :
    readLabels path (.dir mode entries) = .error fault ↔ LabelDefect path mode entries fault := by
  have hallows : (Node.dir mode entries).allows .execute = Right.execute.isIn mode := rfl
  have hchild : (Node.dir mode entries).child? (Bytes.ofString labelFile) =
      entries.lookup (Bytes.ofString labelFile) := rfl
  constructor
  · intro h
    cases hsearch : Right.execute.isIn mode with
    | false =>
      simp only [readLabels, hallows, hsearch] at h
      obtain rfl := Except.error.inj h
      exact .denied hsearch
    | true =>
      cases hnode : entries.lookup (Bytes.ofString labelFile) with
      | none =>
        simp only [readLabels, hallows, hsearch, hchild, hnode] at h
        obtain rfl := Except.error.inj h
        refine .missing hsearch fun hmem => ?_
        obtain ⟨⟨name, node⟩, hmem, rfl⟩ := List.mem_map.1 hmem
        cases hnode.symm.trans ((lookup_eq_some_iff hnames).2 hmem)
      | some node =>
        have hmem := (lookup_eq_some_iff hnames).1 hnode
        cases htext : node.text with
        | error cause =>
          simp only [readLabels, hallows, hsearch, hchild, hnode, htext] at h
          obtain rfl := Except.error.inj h
          exact .unreadable hsearch hmem htext
        | ok text =>
          have hlabel : LabelText mode entries text := ⟨hsearch, node, hmem, htext⟩
          rw [readLabels_of_labelText hnames hlabel, read_eq_error_iff] at h
          rcases h with ⟨hnone, rfl⟩ | ⟨records, before, name, after, hsome, hsplit, hnodup, hname,
            rfl⟩
          · exact .malformed hlabel hnone
          · exact .repeated hlabel hsome hsplit hnodup hname
  · intro h
    cases h with
    | denied hsearch =>
      simp only [readLabels, hallows, hsearch]
      rfl
    | missing hsearch hnone =>
      simp only [readLabels, hallows, hsearch, hchild, Node.lookup_of_not_mem hnone]
      rfl
    | unreadable hsearch hmem htext =>
      simp only [readLabels, hallows, hsearch, hchild, (lookup_eq_some_iff hnames).2 hmem, htext]
      rfl
    | malformed hlabel hnone =>
      rw [readLabels_of_labelText hnames hlabel, read_eq_error_iff]
      exact Or.inl ⟨hnone, rfl⟩
    | repeated hlabel hsome hsplit hnodup hmem =>
      rw [readLabels_of_labelText hnames hlabel, read_eq_error_iff]
      exact Or.inr ⟨_, _, _, _, hsome, hsplit, hnodup, hmem, rfl⟩

theorem Labelled.unique (h : Labelled mode entries labels) (h' : Labelled mode entries labels') :
    labels' = labels := by
  have hread : readLabels [] (.dir mode entries) = .ok labels :=
    (readLabels_eq_ok_iff_labelled hnames).2 h
  have hread' : readLabels [] (.dir mode entries) = .ok labels' :=
    (readLabels_eq_ok_iff_labelled hnames).2 h'
  exact Except.ok.inj (hread'.symm.trans hread)

theorem LabelDefect.unique (h : LabelDefect path mode entries fault)
    (h' : LabelDefect path mode entries fault') : fault' = fault := by
  have hread := (readLabels_eq_error_iff hnames).2 h
  have hread' := (readLabels_eq_error_iff hnames).2 h'
  exact Except.error.inj (hread'.symm.trans hread)

end

/-! The tree as a whole. -/

section
variable {α β : Type} {path : Path} {mode : Nat} {entries : List (Bytes × Node)}
  {labels : RecordFile} {x : Outcome α} {f : α → Outcome β} {k : Nat}

abbrev ReportsFrom (path : Path) (root : Option Node) (k : Nat) (x : Outcome α) : Prop :=
  ReportsFirst Stage.Before (Defect path root) (fun s => k ≤ s.part) x

theorem ReportsFrom.bind {root : Option Node}
    (hx : ReportsFirst Stage.Before (Defect path root) (fun s => s.part = k) x)
    (hf : ∀ a, x = .ok a → ReportsFrom path root (k + 1) (f a)) :
    ReportsFrom path root k (x >>= f) := by
  have hboth := ReportsFirst.bind hx hf fun s t (hs : s.part = k) (ht : k + 1 ≤ t.part) hbefore =>
    absurd hbefore.part_le (by omega)
  refine hboth.widen ?_ fun s hs hnot => ?_
  · rintro s (hs | hs) <;> omega
  · omega

theorem reportsFirst_readLabels (hnames : (entries.map Prod.fst).Nodup) :
    ReportsFirst Stage.Before (Defect path (some (.dir mode entries))) (fun s => s.part = 1)
      (readLabels path (.dir mode entries)) := by
  refine ReportsFirst.single (s := .labels) (fun s => ?_) (Stage.Before.irrefl _) ?_ ?_
  · cases s <;> simp [Stage.part]
  · intro fault heq
    exact .labels ((readLabels_eq_error_iff hnames).1 heq)
  · intro labels heq fault hdefect
    cases hdefect with
    | labels h => exact nomatch heq.symm.trans ((readLabels_eq_error_iff hnames).2 h)

theorem reportsFirst_listDir :
    ReportsFirst Stage.Before (Defect path (some (.dir mode entries))) (fun s => s.part = 2)
      (listDir path (.dir mode entries)) := by
  refine ReportsFirst.single (s := .listing) (fun s => ?_) (Stage.Before.irrefl _) ?_ ?_
  · cases s <;> simp [Stage.part]
  · intro fault heq
    obtain ⟨hdenied, rfl⟩ := listDir_dir_eq_error_iff.1 heq
    exact .listing hdenied
  · intro listed heq fault hdefect
    obtain ⟨hread, -⟩ := listDir_dir_eq_ok_iff.1 heq
    cases hdefect with
    | listing hdenied => exact nomatch hread.symm.trans hdenied

theorem reportsFirst_loadDir (hdistinct : (Node.dir mode entries).NamesDistinct)
    (hlabels : Labelled mode entries labels) {entry : Bytes × Node}
    (hentry : entry ∈ scenarioDirs entries) :
    ReportsFirst Stage.Before (Defect path (some (.dir mode entries)))
      (fun s => ∃ check, s = .dir entry.1 check) (loadDir path labels entry) := by
  obtain ⟨dir, node⟩ := entry
  obtain ⟨innerMode, inner, rfl, hhidden, hmem⟩ := mem_scenarioDirs_iff.1 hentry
  obtain ⟨hnames, hbelow⟩ := Node.namesDistinct_dir_iff.1 hdistinct
  have hinner := (Node.namesDistinct_dir_iff.1 (hbelow _ hmem)).1
  refine (checks_loadDir hinner).lift (.dir dir) (fun s => ?_) (fun c d hbefore => ?_) ?_
  · constructor
    · rintro ⟨check, rfl⟩
      exact ⟨check, ⟨Nat.zero_le _, check.rank_lt⟩, rfl⟩
    · rintro ⟨check, -, rfl⟩
      exact ⟨check, rfl⟩
  · rcases Stage.before_dir_iff.1 hbefore with hlt | ⟨-, hlt⟩
    · exact absurd hlt (List.lt_irrefl _)
    · exact hlt
  · intro check _ fault
    refine ⟨fun hdefect => ?_, fun hdefect => .dir hlabels hhidden hmem hdefect⟩
    cases hdefect with
    | dir hlabels' _ hmem' hdefect =>
      obtain rfl := hlabels.unique hnames hlabels'
      have hsame := List.inj_on_of_nodup_map hnames hmem hmem' rfl
      obtain ⟨rfl, rfl⟩ := Node.dir.inj (Prod.mk.inj hsame).2
      exact hdefect

theorem pairwise_scenarioDirs (hnames : (entries.map Prod.fst).Nodup) :
    (scenarioDirs entries).Pairwise fun a b => a.1 < b.1 := by
  have hsorted : (scenarioDirs entries).Pairwise fun a b => a.1 ≤ b.1 :=
    Bytes.pairwise_mergeSort Prod.fst _
  refine hsorted.imp₂ (fun a b hle hne => ?_) (List.pairwise_map.1 (nodup_scenarioDirs hnames))
  exact List.not_le.1 fun hge => hne (List.le_antisymm hle hge)

theorem scenarioDirs_eq {dirs : List (Bytes × Node)} (hnames : (entries.map Prod.fst).Nodup)
    (hperm : (entries.filter fun entry => entry.2.isDir && !isHidden entry.1).Perm dirs)
    (hsorted : dirs.Pairwise fun a b => a.1 < b.1) : scenarioDirs entries = dirs :=
  ((List.mergeSort_perm _ _).trans hperm).eq_of_pairwise
    (fun _ _ _ _ hlt hgt => absurd hgt (List.lt_asymm hlt)) (pairwise_scenarioDirs hnames) hsorted

theorem load_eq_of_scenarioDirs {dirs : List (Bytes × Node)} (hread : Right.read.isIn mode = true)
    (hdirs : scenarioDirs entries = dirs) :
    load path (some (.dir mode entries)) = (do
      let labels ← readLabels path (.dir mode entries)
      let scenarios ← dirs.mapM (loadDir path labels)
      match (NameMap.keys labels).find? fun key => !(scenarios.map (·.name)).contains key with
      | some key => throw (.orphanLabel key)
      | none => ofScenarios scenarios) := by
  have hlist : listDir path (.dir mode entries) = .ok entries :=
    listDir_dir_eq_ok_iff.2 ⟨hread, rfl⟩
  rw [load, hlist, ← hdirs]
  rfl

theorem reportsFirst_loadDirs (hdistinct : (Node.dir mode entries).NamesDistinct)
    (hlabels : Labelled mode entries labels) :
    ReportsFirst Stage.Before (Defect path (some (.dir mode entries))) (fun s => s.part = 3)
      ((scenarioDirs entries).mapM (loadDir path labels)) := by
  have hnames := (Node.namesDistinct_dir_iff.1 hdistinct).1
  have hdir : ∀ entry ∈ scenarioDirs entries,
      ReportsFirst Stage.Before (Defect path (some (.dir mode entries)))
        (fun s => ∃ check, s = .dir entry.1 check) (loadDir path labels entry) :=
    fun entry hentry => reportsFirst_loadDir hdistinct hlabels hentry
  refine (ReportsFirst.mapM hdir ((pairwise_scenarioDirs hnames).imp ?_)).widen ?_ ?_
  · rintro a b hlt _ _ ⟨check, rfl⟩ ⟨check', rfl⟩ hbefore
    rcases Stage.before_dir_iff.1 hbefore with hlt' | ⟨hsame, -⟩
    · exact List.lt_asymm hlt hlt'
    · exact List.lt_irrefl a.1 (hsame ▸ hlt)
  · rintro _ ⟨entry, -, check, rfl⟩
    rfl
  · intro s hs hnot fault hdefect
    cases hdefect with
    | @dir _ _ _ name innerMode inner check _ _ hhidden hmem =>
      exact hnot ⟨_, mem_scenarioDirs_iff.2 ⟨innerMode, inner, rfl, hhidden, hmem⟩, check, rfl⟩
    | _ => exact nomatch hs

theorem reportsFirst_orphans (hnames : (entries.map Prod.fst).Nodup) {scenarios : List Scenario}
    (hlabels : Labelled mode entries labels)
    (h : (scenarioDirs entries).mapM (loadDir path labels) = .ok scenarios) :
    ReportsFrom path (some (.dir mode entries)) 4
      (match (NameMap.keys labels).find? fun key => !(scenarios.map (·.name)).contains key with
      | some key => throw (.orphanLabel key)
      | none => ofScenarios scenarios) := by
  have hcontains : ∀ key, (!(scenarios.map (·.name)).contains key) = true ↔
      ∀ inner, ¬HoldsDir entries (Bytes.ofString key) inner := by
    intro key
    have hdirs : (∃ inner, HoldsDir entries (Bytes.ofString key) inner) ↔
        ∃ name ∈ scenarios.map (·.name), Bytes.ofString key = Bytes.ofString name :=
      mem_dirs_iff_of_loadDirs h
    simp only [Bytes.ofString_inj, exists_eq_right'] at hdirs
    rw [Bool.not_eq_true', ← Bool.not_eq_true, List.contains_iff_mem, ← hdirs, not_exists]
  have horphan : ∀ {key fault},
      Defect path (some (.dir mode entries)) (.orphan key) fault ↔
        key ∈ NameMap.keys labels ∧ (!(scenarios.map (·.name)).contains key) = true ∧
          fault = .orphanLabel key := by
    intro key fault
    constructor
    · intro hdefect
      cases hdefect with
      | orphan hlabels' hkey hnone =>
        obtain rfl := hlabels.unique hnames hlabels'
        exact ⟨hkey, (hcontains key).2 hnone, rfl⟩
    · rintro ⟨hkey, hnone, rfl⟩
      exact .orphan hlabels hkey ((hcontains key).1 hnone)
  have hstage : ∀ s : Stage, 4 ≤ s.part → ∃ key, s = .orphan key := by
    intro s hs
    cases s with
    | orphan key => exact ⟨key, rfl⟩
    | _ => simp [Stage.part] at hs
  split
  · next key hfind =>
    obtain ⟨hnone, before, after, hsplit, hbefore⟩ := List.find?_eq_some_iff_append.1 hfind
    have hkey : key ∈ NameMap.keys labels := List.mem_of_find?_eq_some hfind
    have hascending : (NameMap.keys labels).Pairwise (· < ·) := labels.ascending
    refine ⟨fun heq => ?_, fun heq => by cases heq⟩
    obtain rfl := Except.error.inj heq
    refine ⟨.orphan key, Nat.le_refl 4, horphan.2 ⟨hkey, hnone, rfl⟩, ?_⟩
    intro earlier hearlier hlt other hdefect
    obtain ⟨key', rfl⟩ := hstage earlier hearlier
    obtain ⟨hkey', hnone', -⟩ := horphan.1 hdefect
    have hlt := Stage.before_orphan_iff.1 hlt
    rw [hsplit] at hkey' hascending
    obtain ⟨-, hafter, -⟩ := List.pairwise_append.1 hascending
    rcases List.mem_append.1 hkey' with hmem | hmem
    · exact absurd hnone' (by simpa using hbefore key' hmem)
    · rcases List.mem_cons.1 hmem with rfl | hmem
      · exact String.lt_irrefl _ hlt
      · exact String.lt_asymm hlt ((List.pairwise_cons.1 hafter).1 key' hmem)
  · next hfind =>
    constructor
    · intro fault heq
      obtain ⟨c, hc⟩ := exists_ofScenarios (nodup_names_of_loadDirs hnames h)
      cases hc.symm.trans heq
    · intro c _ s hs fault hdefect
      obtain ⟨key, rfl⟩ := hstage s hs
      obtain ⟨hkey, hnone, -⟩ := horphan.1 hdefect
      exact List.find?_eq_none.1 hfind key hkey hnone

theorem reportsFirst_load (hdistinct : (Node.dir mode entries).NamesDistinct) :
    ReportsFrom path (some (.dir mode entries)) 0 (load path (some (.dir mode entries))) := by
  have hnames := (Node.namesDistinct_dir_iff.1 hdistinct).1
  have hfrom : ReportsFrom path (some (.dir mode entries)) 1
      (load path (some (.dir mode entries))) := by
    rw [load]
    refine ReportsFrom.bind (reportsFirst_readLabels hnames) fun labels hlabels => ?_
    have hlabels := (readLabels_eq_ok_iff_labelled hnames).1 hlabels
    refine ReportsFrom.bind reportsFirst_listDir fun listed hlisted => ?_
    obtain ⟨-, rfl⟩ := listDir_dir_eq_ok_iff.1 hlisted
    exact ReportsFrom.bind (reportsFirst_loadDirs hdistinct hlabels) fun scenarios hscenarios =>
      reportsFirst_orphans hnames hlabels hscenarios
  refine hfrom.widen (fun _ _ => Nat.zero_le _) fun s _ hnot fault hdefect => ?_
  cases hdefect with
  | root hnone => exact hnone mode entries rfl
  | _ => exact hnot (by simp [Stage.part])

end

theorem reportsFirst_root {path : Path} {root : Option Node}
    (hdistinct : ∀ node ∈ root, node.NamesDistinct) : ReportsFrom path root 0 (load path root) := by
  by_cases hdir : ∃ mode entries, root = some (.dir mode entries)
  · obtain ⟨mode, entries, rfl⟩ := hdir
    exact reportsFirst_load (hdistinct _ rfl)
  · have hnone : ∀ mode entries, root ≠ some (.dir mode entries) :=
      fun mode entries h => hdir ⟨mode, entries, h⟩
    have hload : load path root = .error (.corpusMissing (Bytes.display path)) := by
      match root, hnone with
      | none, _ => rfl
      | some (.file ..), _ => rfl
      | some (.special _), _ => rfl
      | some (.dir mode entries), hnone => exact absurd rfl (hnone mode entries)
    rw [hload]
    refine ⟨fun heq => ?_, nofun⟩
    obtain rfl := Except.error.inj heq
    refine ⟨.root, Nat.le_refl 0, .root hnone, fun earlier _ hbefore => ?_⟩
    cases hbefore with
    | part hlt => exact absurd hlt (Nat.not_lt_zero _)

theorem Defect.unique {path : Path} {root : Option Node} {stage : Stage} {fault fault' : Fault}
    (hdistinct : ∀ node ∈ root, node.NamesDistinct) (h : Defect path root stage fault)
    (h' : Defect path root stage fault')
    (hfirst : ∀ earlier, earlier.Before stage → ∀ other, ¬Defect path root earlier other) :
    fault' = fault ∨ OtherClash root fault fault' := by
  cases h with
  | root =>
    cases h' with
    | root => exact Or.inl rfl
  | listing =>
    cases h' with
    | listing => exact Or.inl rfl
  | orphan =>
    cases h' with
    | orphan => exact Or.inl rfl
  | labels h =>
    cases h' with
    | labels h' =>
      have hnames := (Node.namesDistinct_dir_iff.1 (hdistinct _ rfl)).1
      exact Or.inl (h.unique hnames h')
  | dir hlabels hhidden hmem h =>
    cases h' with
    | dir hlabels' _ hmem' h' =>
      obtain ⟨hnames, hbelow⟩ := Node.namesDistinct_dir_iff.1 (hdistinct _ rfl)
      obtain rfl := hlabels.unique hnames hlabels'
      have hsame := List.inj_on_of_nodup_map hnames hmem hmem' rfl
      obtain ⟨rfl, rfl⟩ := Node.dir.inj (Prod.mk.inj hsame).2
      have hinner := (Node.namesDistinct_dir_iff.1 (hbelow _ hmem)).1
      rcases h.unique hinner h' fun check hlt other hdefect =>
        hfirst _ (.check hlt) other (.dir hlabels hhidden hmem hdefect) with
        heq | ⟨hmany, name, role, first, second, role', first', second', rfl, rfl, rfl⟩
      · exact Or.inl heq
      · exact Or.inr (.intro rfl hmem hmany)

/-- Loading reports a defect of the tree before which there is no other, and fails only if there is
one. Directories that list the same entries in another order do not change what is reported, except
that it may be another of several clashes in a scenario. -/
theorem load_reports_first_defect (path : Path) (root : Option Node)
    (hdistinct : ∀ node ∈ root, node.NamesDistinct) :
    (∀ fault, load path root = .error fault → ∃ stage, Defect path root stage fault ∧
      ∀ earlier, earlier.Before stage → ∀ other, ¬Defect path root earlier other) ∧
    ((∃ c, load path root = .ok c) ↔ ∀ stage fault, ¬Defect path root stage fault) ∧
    ∀ root', Option.Rel Node.Relisted root root' → ∀ fault, load path root = .error fault →
      ∃ fault', load path root' = .error fault' ∧
        (fault' = fault ∨ OtherClash root fault fault') := by
  have hreports : ∀ {root}, (∀ node ∈ root, node.NamesDistinct) → ∀ fault,
      load path root = .error fault → ∃ stage, Defect path root stage fault ∧
        ∀ earlier, earlier.Before stage → ∀ other, ¬Defect path root earlier other := by
    intro root hdistinct fault hload
    obtain ⟨stage, -, hdefect, hfirst⟩ := (reportsFirst_root hdistinct).fails hload
    exact ⟨stage, hdefect, fun earlier => hfirst earlier (Nat.zero_le _)⟩
  have hpasses : ∀ {root}, (∀ node ∈ root, node.NamesDistinct) → ∀ c,
      load path root = .ok c → ∀ stage fault, ¬Defect path root stage fault :=
    fun hdistinct c hload stage => (reportsFirst_root hdistinct).passes hload stage (Nat.zero_le _)
  refine ⟨hreports hdistinct, ⟨fun ⟨c, hload⟩ => hpasses hdistinct c hload, fun hnone => ?_⟩, ?_⟩
  · cases hload : load path root with
    | ok c => exact ⟨c, rfl⟩
    | error fault =>
      obtain ⟨stage, hdefect, -⟩ := hreports hdistinct fault hload
      exact absurd hdefect (hnone stage fault)
  · intro root' hrelisted fault hload
    have hback : Option.Rel Node.Relisted root' root := by
      cases hrelisted with
      | some h => exact .some h.symm
      | none => exact .none
    have hdistinct' : ∀ node ∈ root', node.NamesDistinct := by
      cases hrelisted with
      | some h =>
        intro node hnode
        obtain rfl := Option.some.inj hnode
        exact h.namesDistinct (hdistinct _ rfl)
      | none => exact nofun
    obtain ⟨stage, hdefect, hfirst⟩ := hreports hdistinct fault hload
    cases hload' : load path root' with
    | ok c => exact absurd (hdefect.relisted hrelisted) (hpasses hdistinct' c hload' stage fault)
    | error fault' =>
      obtain ⟨stage', hdefect', hfirst'⟩ := hreports hdistinct' fault' hload'
      obtain rfl : stage = stage' := by
        refine Stage.eq_of_not_before (fun hbefore => ?_) fun hbefore => ?_
        · exact hfirst' stage hbefore fault (hdefect.relisted hrelisted)
        · exact hfirst stage' hbefore fault' (hdefect'.relisted hback)
      exact ⟨fault', rfl, hdefect.unique hdistinct (hdefect'.relisted hback) hfirst⟩

def clashingFiles : List (Bytes × Node) :=
  ["base.c", "ancestor.c", "left.c", "left.h"].map fun name =>
    (Bytes.ofString name, .file [] 0o644)

def defectiveTree (files : List (Bytes × Node)) : List (Bytes × Node) :=
  let labels := RecordFile.write
    (.ofList [("Q", ⟨some "CONFLICT", ∅⟩), ("S", ⟨some "CONFLICT", ∅⟩), ("T", ⟨some "MAYBE", ∅⟩)])
  [(Bytes.ofString "scenarios.json", .file (Bytes.ofString labels) 0o644),
    (Bytes.ofString "T", .dir 0o755 []), (Bytes.ofString "S", .dir 0o755 files)]

theorem namesDistinct_defectiveTree :
    (Node.dir 0o755 (defectiveTree clashingFiles)).NamesDistinct := by
  have hfile : ∀ content, (Node.file content 0o644).NamesDistinct := fun _ =>
    Node.namesDistinct_of_entries_eq_nil rfl
  have hempty : (Node.dir 0o755 []).NamesDistinct := Node.namesDistinct_of_entries_eq_nil rfl
  refine Node.namesDistinct_dir_iff.2 ⟨by decide +kernel, ?_⟩
  simp only [defectiveTree, List.forall_mem_cons, hfile, hempty, true_and]
  refine ⟨Node.namesDistinct_dir_iff.2 ⟨by decide +kernel, ?_⟩, nofun⟩
  simp [clashingFiles, hfile]

theorem relisted_defectiveTree : (Node.dir 0o755 (defectiveTree clashingFiles)).Relisted
    (.dir 0o755 (defectiveTree clashingFiles.reverse).reverse) := by
  have hfiles : (Node.dir 0o755 clashingFiles).Relisted (.dir 0o755 clashingFiles.reverse) :=
    .order (List.reverse_perm clashingFiles).symm
  have hlast : ∀ files, defectiveTree files =
      (defectiveTree []).take 2 ++ [(Bytes.ofString "S", .dir 0o755 files)] := fun _ => rfl
  refine .trans ?_ (.order (List.reverse_perm _).symm)
  rw [hlast clashingFiles, hlast clashingFiles.reverse]
  exact .inside hfiles

theorem clashingFiles_load_reports :
    let tree := some (Node.dir 0o755 (defectiveTree clashingFiles))
    let relisted := some (Node.dir 0o755 (defectiveTree clashingFiles.reverse).reverse)
    let fault := Fault.repeatedArtifact "S" .ancestor "c/S/ancestor.c" "c/S/base.c"
    let fault' := Fault.repeatedArtifact "S" .left "c/S/left.c" "c/S/left.h"
    load (Bytes.ofString "c") tree = .error fault ∧
      load (Bytes.ofString "c") relisted = .error fault' ∧ OtherClash tree fault fault' ∧
      ∃ stage, Defect (Bytes.ofString "c") tree stage fault ∧
        ∀ earlier, earlier.Before stage → ∀ other,
          ¬Defect (Bytes.ofString "c") tree earlier other := by
  intro tree relisted fault fault'
  have hdistinct : ∀ node ∈ tree, node.NamesDistinct := fun node h =>
    Option.some.inj h ▸ namesDistinct_defectiveTree
  obtain ⟨hnames, -⟩ := Node.namesDistinct_dir_iff.1 namesDistinct_defectiveTree
  obtain ⟨hnames', -⟩ :=
    Node.namesDistinct_dir_iff.1 (relisted_defectiveTree.namesDistinct namesDistinct_defectiveTree)
  have hload : load (Bytes.ofString "c") tree = .error fault := by
    rw [← fault?_eq_some_iff, load_eq_of_scenarioDirs rfl
      (scenarioDirs_eq hnames (.swap _ _ []) (by decide +kernel))]
    decide +kernel
  have hload' : load (Bytes.ofString "c") relisted = .error fault' := by
    rw [← fault?_eq_some_iff, load_eq_of_scenarioDirs rfl
      (scenarioDirs_eq hnames' (.refl _) (by decide +kernel))]
    decide +kernel
  obtain ⟨hreports, -, hrelisted⟩ :=
    load_reports_first_defect (Bytes.ofString "c") tree hdistinct
  obtain ⟨other, hother, hclash⟩ :=
    hrelisted relisted (.some relisted_defectiveTree) fault hload
  obtain rfl := Except.error.inj (hload'.symm.trans hother)
  exact ⟨hload, hload', hclash.resolve_left (by decide), hreports fault hload⟩

end Corpus
end MergeTrial
