import MergeTrial.Proofs.Records.Replay

/-! The defects of a record file, in the order of its scenarios, for each the label first and then
the entries by strategy. A replay fails with the first of them; without any it judges every strategy
that the file mentions on every scenario of it, as the runs themselves would be judged. -/

namespace MergeTrial

theorem Label.exists_name_eq_iff {text : String} :
    (∃ label : Label, text = label.name) ↔ text = "CONFLICT" ∨ text = "SUCCESS" := by
  constructor
  · rintro ⟨_ | _, rfl⟩
    · exact Or.inl rfl
    · exact Or.inr rfl
  · rintro (rfl | rfl)
    · exact ⟨.conflict, rfl⟩
    · exact ⟨.success, rfl⟩

namespace RecordedRun
variable {run : RecordedRun} {scenario strategy : String}

def readField {α : Type} (read : String → Option α) (default : α) (cause : String → Fault) :
    Option String → Outcome α
  | none => .ok default
  | some text =>
    match read text with
    | some value => .ok value
    | none => .error (cause text)

theorem fault?_readField {α : Type} (read : String → Option α) (default : α)
    (cause : String → Fault) (field : Option String) :
    (readField read default cause field).fault? =
      (field.filter fun text => (read text).isNone).map cause := by
  cases field with
  | none => rfl
  | some text => cases h : read text <;> simp [readField, h, Outcome.fault?, Option.filter]

theorem decode_eq (run : RecordedRun) (scenario strategy : String) :
    run.decode scenario strategy = (do
      let status ← readField Status.ofRecorded? .skipped
        (fun text => .ambiguous scenario strategy (.unknownStatus text)) run.execution
      let comparison ← readField Comparison.ofRecorded? .notComparable
        (fun text => .ambiguous scenario strategy (.unknownComparison text)) run.comparison
      return (status, comparison)) := by
  obtain ⟨execution, comparison⟩ := run
  cases execution with
  | none =>
    cases comparison with
    | none => rfl
    | some text =>
      cases h : Comparison.ofRecorded? text <;> simp only [decode, readField, h] <;> rfl
  | some word =>
    cases hword : Status.ofRecorded? word with
    | none =>
      simp only [decode, readField, hword]
      rfl
    | some status =>
      cases comparison with
      | none =>
        simp only [decode, readField, hword]
        rfl
      | some text =>
        cases h : Comparison.ofRecorded? text <;> simp only [decode, readField, hword, h] <;> rfl

/-- What keeps an entry from being decoded. Of two bad fields, the status is the one that shows. -/
def defect? (run : RecordedRun) (scenario strategy : String) : Option Fault :=
  ((run.execution.filter fun text => (Status.ofRecorded? text).isNone).map fun text =>
      .ambiguous scenario strategy (.unknownStatus text)).or
    ((run.comparison.filter fun text => (Comparison.ofRecorded? text).isNone).map fun text =>
      .ambiguous scenario strategy (.unknownComparison text))

theorem fault?_decode (run : RecordedRun) (scenario strategy : String) :
    (run.decode scenario strategy).fault? = run.defect? scenario strategy := by
  rw [decode_eq, defect?, ← fault?_readField _ Status.skipped,
    ← fault?_readField _ Comparison.notComparable]
  exact Outcome.fault?_bind fun status _ => Outcome.fault?_bind_pure ..

theorem status_of_decode {outcome : Status × Comparison} (h : run.execution = none)
    (hdecode : run.decode scenario strategy = .ok outcome) : outcome.1 = .skipped := by
  rw [decode_eq, h] at hdecode
  obtain ⟨status, hstatus, hdecode⟩ := Outcome.bind_eq_ok.1 hdecode
  obtain ⟨comparison, -, hdecode⟩ := Outcome.bind_eq_ok.1 hdecode
  obtain rfl := Except.ok.inj hstatus
  exact Except.ok.inj hdecode ▸ rfl

end RecordedRun

theorem NameMap.filterMap_get? {α β : Type} (m : NameMap α) (f : String → α → Option β)
    {names : List String} (hnames : names.Pairwise (· < ·)) (hkeys : ∀ x ∈ m.keys, x ∈ names) :
    names.filterMap (fun name => (m.get? name).bind (f name)) =
      m.toList.filterMap fun entry => f entry.1 entry.2 := by
  have hthere : names.filter (· ∈ m.keys) = m.keys := by
    refine NameSet.eq_of_ascending (hnames.filter _) m.ascending fun x => ?_
    rw [List.mem_filter, decide_eq_true_eq]
    exact ⟨And.right, fun hx => ⟨hkeys x hx, hx⟩⟩
  calc names.filterMap (fun name => (m.get? name).bind (f name))
      = (names.filter (· ∈ m.keys)).filterMap fun name => (m.get? name).bind (f name) := by
        rw [List.filterMap_filter]
        refine List.filterMap_congr fun name _ => ?_
        by_cases hname : name ∈ m.keys
        · simp [hname]
        · have hnone : m.get? name = none := find_eq_none_iff.2 hname
          simp [hname, hnone]
    _ = m.toList.filterMap fun entry => f entry.1 entry.2 := by
        rw [hthere, keys, List.filterMap_map]
        refine List.filterMap_congr fun entry hentry => ?_
        have hsome : m.get? entry.1 = some entry.2 := get?_eq_some_iff.2 hentry
        rw [Function.comp_apply, hsome, Option.bind_some]

namespace Record
variable {record : Record} {scenario strategy : String} {policy : Policy} {cs : List Classification}

def labelDefect? (record : Record) (scenario : String) : Option Fault :=
  match record.expected with
  | none => some (.missingLabel scenario)
  | some text =>
    if text = "CONFLICT" ∨ text = "SUCCESS" then none else some (.invalidLabel scenario text)

/-- Everything that keeps a record from being judged: its label, if it is none, and then the entries
that cannot be decoded, by strategy. -/
def defects (record : Record) (scenario : String) : List Fault :=
  (record.labelDefect? scenario).toList ++
    record.runs.toList.filterMap fun entry => entry.2.defect? scenario entry.1

theorem fault?_label (record : Record) (scenario : String) :
    (record.label scenario).fault? = record.labelDefect? scenario := by
  rw [label, labelDefect?]
  cases record.expected with
  | none => rfl
  | some text =>
    cases hname : Label.ofName? text with
    | none =>
      have hnone : ¬(text = "CONFLICT" ∨ text = "SUCCESS") := by
        intro htext
        obtain ⟨label, rfl⟩ := Label.exists_name_eq_iff.2 htext
        exact Option.some_ne_none label ((Label.ofName?_name label).symm.trans hname)
      simp only [if_neg hnone, hname]
      rfl
    | some label =>
      have htext := Label.exists_name_eq_iff.1 ⟨label, Label.ofName?_eq_some_iff.1 hname⟩
      simp only [if_pos htext, hname]
      rfl

theorem fault?_outcome (record : Record) (scenario strategy : String) :
    (record.outcome scenario strategy).fault? =
      (record.runs.get? strategy).bind fun run => run.defect? scenario strategy := by
  rw [outcome]
  cases record.runs.get? strategy with
  | none => rfl
  | some run => exact run.fault?_decode scenario strategy

theorem defects_eq_nil_iff :
    record.defects scenario = [] ↔
      (record.expected = some "CONFLICT" ∨ record.expected = some "SUCCESS") ∧
      ∀ strategy run, record.runs.get? strategy = some run →
        ∃ outcome, run.decode scenario strategy = .ok outcome := by
  rw [defects, List.append_eq_nil_iff, Option.toList_eq_nil_iff, List.filterMap_eq_nil_iff]
  refine and_congr ?_ ?_
  · rw [← fault?_label, Outcome.fault?_eq_none_iff]
    simp only [label_eq_ok_iff]
    cases record.expected with
    | none => simp
    | some text => simpa only [Option.some_inj] using Label.exists_name_eq_iff
  · constructor
    · intro h strategy run hrun
      rw [← Outcome.fault?_eq_none_iff, RecordedRun.fault?_decode]
      exact h (strategy, run) (NameMap.get?_eq_some_iff.1 hrun)
    · intro h entry hentry
      rw [← RecordedRun.fault?_decode, Outcome.fault?_eq_none_iff]
      exact h entry.1 entry.2 (NameMap.get?_eq_some_iff.2 hentry)

theorem fault?_classify (record : Record) (policy : Policy) {strategies : List String}
    (scenario : String) (hstrategies : strategies.Pairwise (· < ·))
    (hkeys : ∀ x ∈ record.runs.keys, x ∈ strategies) :
    (record.classify policy strategies scenario).fault? = (record.defects scenario).head? := by
  have hentries : ∀ label : Label, Outcome.fault? (strategies.mapM fun strategy => do
      let ended ← record.outcome scenario strategy
      return Classification.make policy scenario strategy label ended.1 ended.2) =
      (record.runs.toList.filterMap fun entry => entry.2.defect? scenario entry.1).head? := by
    intro label
    rw [Outcome.fault?_mapM, ← List.head?_filterMap,
      ← record.runs.filterMap_get? (fun name run => run.defect? scenario name) hstrategies hkeys]
    refine congrArg List.head? (List.filterMap_congr fun strategy _ => ?_)
    exact (Outcome.fault?_bind_pure ..).trans (record.fault?_outcome scenario strategy)
  rw [classify, Outcome.fault?_bind fun label _ => hentries label, fault?_label, defects,
    List.head?_append, Option.head?_toList]

/-- What the record says about the pair of a row, and that a live run which ended in the same way
comes to the same row. A live run that did not complete compares with nothing; a row about one is an
error whatever comparison is recorded for it. -/
structure Backs (record : Record) (policy : Policy) (c : Classification) : Prop where
  label : record.expected = some c.expected.name
  unrecorded : record.runs.get? c.strategy = none →
    c.status = .skipped ∧ c.comparison = .notComparable ∧ c.verdict = .error
  unfinished : ∀ run, record.runs.get? c.strategy = some run → run.execution = none →
    c.status = .skipped ∧ c.verdict = .error
  recorded : ∀ run, record.runs.get? c.strategy = some run →
    run.decode c.scenario c.strategy = .ok (c.status, c.comparison)
  live : ∀ (scenario : Scenario) (run : Run), scenario.name = c.scenario →
    scenario.label = c.expected → run.scenario = c.scenario → run.strategy = c.strategy →
    run.status = c.status → run.comparison = c.comparison →
    if (c.status = .failed ∨ c.status = .skipped) ∧
        (c.comparison = .agrees ∨ c.comparison = .differs)
    then (∃ fault, Classification.ofRun policy scenario run = .error fault) ∧ c.verdict = .error
    else Classification.ofRun policy scenario run = .ok c

theorem needless_iff {status : Status} {comparison : Comparison} :
    (status = .failed ∨ status = .skipped) ∧ (comparison = .agrees ∨ comparison = .differs) ↔
      status.completed = false ∧ comparison ≠ .notComparable := by
  cases status <;> cases comparison <;> decide

theorem backs_make {label : Label} {status : Status} {comparison : Comparison}
    (hlabel : record.expected = some label.name)
    (houtcome : record.outcome scenario strategy = .ok (status, comparison)) :
    record.Backs policy (.make policy scenario strategy label status comparison) := by
  have herror : status.completed = false → Verdict.judge policy label status comparison = .error :=
    (Verdict.judge_eq_error_iff ..).2
  rw [outcome] at houtcome
  constructor
  case label => exact hlabel
  case unrecorded =>
    intro hnone
    change record.runs.get? strategy = none at hnone
    rw [hnone] at houtcome
    obtain ⟨rfl, rfl⟩ := Prod.mk.inj (Except.ok.inj houtcome)
    exact ⟨rfl, rfl, herror rfl⟩
  case unfinished =>
    intro run hrun hexecution
    change record.runs.get? strategy = some run at hrun
    rw [hrun] at houtcome
    obtain rfl : status = .skipped := RecordedRun.status_of_decode hexecution houtcome
    exact ⟨rfl, herror rfl⟩
  case recorded =>
    intro run hrun
    change record.runs.get? strategy = some run at hrun
    rw [hrun] at houtcome
    exact houtcome
  case live =>
    rintro s run rfl rfl hscenario rfl rfl rfl
    -- the names agree, so that a live run can only be refused for its comparison
    have hsame : ¬run.scenario ≠ s.name := not_not_intro hscenario
    split
    · next hneedless =>
      have hbad : run.status.completed = false ∧ run.comparison ≠ .notComparable :=
        needless_iff.1 hneedless
      rw [Classification.ofRun, if_neg hsame, if_pos hbad]
      exact ⟨⟨_, rfl⟩, herror hbad.1⟩
    · next hfine =>
      have hgood : ¬(run.status.completed = false ∧ run.comparison ≠ .notComparable) :=
        fun hbad => hfine (needless_iff.2 hbad)
      rw [Classification.ofRun, if_neg hsame, if_neg hgood]

theorem backs_of_classify {strategies : List String}
    (h : record.classify policy strategies scenario = .ok cs) :
    ∀ c ∈ cs, c.scenario = scenario ∧ record.Backs policy c := by
  intro c hc
  obtain ⟨label, hlabel, h⟩ := Outcome.bind_eq_ok.1 h
  obtain ⟨strategy, -, hstep⟩ := (Outcome.mem_of_mapM_eq_ok h).2 c hc
  obtain ⟨⟨status, comparison⟩, houtcome, hmake⟩ := Outcome.bind_eq_ok.1 hstep
  obtain rfl := Except.ok.inj hmake
  exact ⟨rfl, backs_make (label_eq_ok_iff.1 hlabel) houtcome⟩

end Record

namespace RecordFile
variable {file : RecordFile} {policy : Policy} {cs : List Classification}

def defects (file : RecordFile) : List Fault :=
  file.toList.flatMap fun entry => entry.2.defects entry.1

theorem mem_strategies_iff {strategy : String} : strategy ∈ strategies file ↔
    ∃ scenario record run, file.get? scenario = some record ∧
      record.runs.get? strategy = some run := by
  simp only [strategies, NameSet.mem_ofList, List.mem_flatMap, ← NameMap.get?_ne_none_iff,
    Option.ne_none_iff_exists']
  constructor
  · rintro ⟨⟨scenario, record⟩, hentry, run, hrun⟩
    exact ⟨scenario, record, run, NameMap.get?_eq_some_iff.2 hentry, hrun⟩
  · rintro ⟨scenario, record, run, hrecord, hrun⟩
    exact ⟨(scenario, record), NameMap.get?_eq_some_iff.1 hrecord, run, hrun⟩

theorem fault?_classify (policy : Policy) (file : RecordFile) :
    (file.classify policy).fault? = (defects file).head? := by
  rw [classify, Outcome.fault?_bind_pure, Outcome.fault?_mapM, defects, List.head?_flatMap,
    ← List.head?_filterMap, ← List.head?_filterMap]
  refine congrArg List.head? (List.filterMap_congr fun entry hentry => ?_)
  refine entry.2.fault?_classify policy entry.1 (strategies file).ascending fun x hx => ?_
  exact NameSet.mem_ofList.2 (List.mem_flatMap.2 ⟨entry, hentry, hx⟩)

theorem defects_eq_nil_iff : defects file = [] ↔
    ∀ scenario record, file.get? scenario = some record →
      (record.expected = some "CONFLICT" ∨ record.expected = some "SUCCESS") ∧
      ∀ strategy run, record.runs.get? strategy = some run →
        ∃ outcome, run.decode scenario strategy = .ok outcome := by
  rw [defects, List.flatMap_eq_nil_iff]
  constructor
  · intro h scenario record hrecord
    exact Record.defects_eq_nil_iff.1 (h (scenario, record) (NameMap.get?_eq_some_iff.1 hrecord))
  · intro h entry hentry
    exact Record.defects_eq_nil_iff.2 (h entry.1 entry.2 (NameMap.get?_eq_some_iff.2 hentry))

theorem backs_of_classify (h : file.classify policy = .ok cs) :
    ∀ c ∈ cs, ∃ record, file.get? c.scenario = some record ∧ record.Backs policy c := by
  intro c hc
  obtain ⟨rows, hrows, h⟩ := Outcome.bind_eq_ok.1 h
  obtain rfl := Except.ok.inj h
  obtain ⟨row, hrow, hc⟩ := List.mem_flatten.1 hc
  obtain ⟨entry, hentry, hclassify⟩ := (Outcome.mem_of_mapM_eq_ok hrows).2 row hrow
  obtain ⟨hscenario, hbacks⟩ := Record.backs_of_classify hclassify c hc
  exact ⟨entry.2, NameMap.get?_eq_some_iff.2 (hscenario ▸ hentry), hbacks⟩

/-- A replay fails with the first defect of the file, and succeeds if it has none: if every label is
a label and every entry can be decoded. Then it has one row for each scenario of the file and each
strategy mentioned in any of its records, in ascending order, and says of each what its record
says. -/
theorem classify_or_first_defect (policy : Policy) (file : RecordFile) :
    (∀ fault, file.classify policy = .error fault ↔ (defects file).head? = some fault) ∧
    ((∃ cs, file.classify policy = .ok cs) ↔
      ∀ scenario record, file.get? scenario = some record →
        (record.expected = some "CONFLICT" ∨ record.expected = some "SUCCESS") ∧
        ∀ strategy run, record.runs.get? strategy = some run →
          ∃ outcome, run.decode scenario strategy = .ok outcome) ∧
    ∀ cs, file.classify policy = .ok cs →
      (cs.map fun c => (c.scenario, c.strategy)).Pairwise
        (fun a b => a.1 < b.1 ∨ a.1 = b.1 ∧ a.2 < b.2) ∧
      (∀ scenario strategy, (scenario, strategy) ∈ cs.map (fun c => (c.scenario, c.strategy)) ↔
        (∃ record, file.get? scenario = some record) ∧
        ∃ other record run, file.get? other = some record ∧
          record.runs.get? strategy = some run) ∧
      ∀ c ∈ cs, ∃ record, file.get? c.scenario = some record ∧ record.Backs policy c := by
  refine ⟨fun fault => ?_, ?_, fun cs hcs => ⟨?_, fun scenario strategy => ?_,
    backs_of_classify hcs⟩⟩
  · rw [← Outcome.fault?_eq_some_iff, fault?_classify]
  · rw [← Outcome.fault?_eq_none_iff, fault?_classify, List.head?_eq_none_iff, defects_eq_nil_iff]
  · rw [map_classify hcs]
    exact Pass.pairwise_plan file.ascending (strategies file).ascending
  · rw [map_classify hcs, Pass.mem_plan, NameSet.mem_toList, mem_strategies_iff,
      ← NameMap.get?_ne_none_iff, Option.ne_none_iff_exists']

def threeEntries (label status : String) : RecordFile :=
  .ofList [("S1", ⟨some "CONFLICT", .ofList [("x", ⟨some "FAILED (exit 3)", some "MATCH"⟩)]⟩),
    ("S2", ⟨some label, .ofList [("y", ⟨none, some "DIFFER"⟩), ("x", ⟨some status, none⟩)]⟩)]

theorem threeEntries_classify_or_first_defect :
    classify .separate (threeEntries "success" "done") = .error (.invalidLabel "S2" "success") ∧
    classify .separate (threeEntries "SUCCESS" "done") =
      .error (.ambiguous "S2" "x" (.unknownStatus "done")) ∧
    ∃ cs, classify .separate (threeEntries "SUCCESS" "SUCCESS") = .ok cs ∧
      ∃ c ∈ cs, (c.scenario, c.strategy) = ("S1", "x") ∧ c.status = .failed ∧
        c.comparison = .agrees ∧ c.verdict = .error := by
  have hlabel := (classify_or_first_defect .separate (threeEntries "success" "done")).1
  have hentry := (classify_or_first_defect .separate (threeEntries "SUCCESS" "done")).1
  obtain ⟨-, hok, hrows⟩ := classify_or_first_defect .separate (threeEntries "SUCCESS" "SUCCESS")
  refine ⟨(hlabel _).2 (by decide), (hentry _).2 (by decide), ?_⟩
  have hnone : defects (threeEntries "SUCCESS" "SUCCESS") = [] := by decide
  obtain ⟨cs, hcs⟩ := hok.2 (defects_eq_nil_iff.1 hnone)
  obtain ⟨-, hpairs, hbacks⟩ := hrows cs hcs
  have hpair : ("S1", "x") ∈ cs.map fun c => (c.scenario, c.strategy) :=
    (hpairs "S1" "x").2 ⟨⟨_, rfl⟩, "S1", _, _, rfl, rfl⟩
  obtain ⟨c, hc, hname⟩ := List.mem_map.1 hpair
  obtain ⟨hscenario, hstrategy⟩ := Prod.mk.inj hname
  obtain ⟨record, hrecord, hback⟩ := hbacks c hc
  rw [hscenario] at hrecord
  obtain rfl := Option.some.inj hrecord
  have hdecode := hback.recorded ⟨some "FAILED (exit 3)", some "MATCH"⟩ (by rw [hstrategy]; rfl)
  obtain ⟨hstatus, hcomparison⟩ : Status.failed = c.status ∧ Comparison.agrees = c.comparison :=
    Prod.mk.inj (Except.ok.inj hdecode)
  have hlive := hback.live ⟨c.scenario, c.expected, "", "", "", none, none⟩
    ⟨c.scenario, c.strategy, c.status, "", "", c.comparison⟩ rfl rfl rfl rfl rfl rfl
  rw [if_pos ⟨Or.inl hstatus.symm, Or.inl hcomparison.symm⟩] at hlive
  exact ⟨cs, hcs, c, hc, hname, hstatus.symm, hcomparison.symm, hlive.2⟩

end RecordFile
end MergeTrial
