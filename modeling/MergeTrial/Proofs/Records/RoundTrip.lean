import MergeTrial.Records.File
import MergeTrial.Proofs.Json.RoundTrip

/-! Reading a written record file gives back the file, unless a strategy in it bears the name of the
member that holds the label. No file that was read has such a strategy. -/

namespace MergeTrial

namespace Json

theorem keyed?_map_some (members : List (String × Json)) :
    keyed? (members.map fun member => (some member.1, member.2)) = some members := by
  rw [keyed?, List.mapM_map]
  have hpure : (members.mapM fun member => (pure (id member) : Option (String × Json))) =
      pure (members.map id) := List.mapM_pure
  rw [List.map_id] at hpure
  exact hpure

theorem fields?_record (names : List String) (members : List (String × Json)) :
    fields? names (record members) = names.mapM (unique? members) := by
  rw [record, fields?, keyed?_map_some]
  rfl

end Json

theorem mapM_cons_eq_some_iff {α β : Type} {f : α → Option β} {x : α} {xs : List α}
    {ys : List β} : (x :: xs).mapM f = some ys ↔
      ∃ y zs, f x = some y ∧ xs.mapM f = some zs ∧ ys = y :: zs := by
  rw [List.mapM_cons]
  constructor
  · intro h
    obtain ⟨y, hy, h⟩ := Option.bind_eq_some_iff.1 h
    obtain ⟨zs, hzs, h⟩ := Option.bind_eq_some_iff.1 h
    exact ⟨y, zs, hy, hzs, (Option.some.inj h).symm⟩
  · rintro ⟨y, zs, hy, hzs, rfl⟩
    rw [hy, hzs]
    rfl

theorem mapM_pair_eq_some_iff {α β : Type} {f : α → Option β} {x x' : α} {y y' : β} :
    [x, x'].mapM f = some [y, y'] ↔ f x = some y ∧ f x' = some y' := by
  constructor
  · intro h
    obtain ⟨_, _, hx, hrest, heq⟩ := mapM_cons_eq_some_iff.1 h
    obtain ⟨_, _, hx', -, rfl⟩ := mapM_cons_eq_some_iff.1 hrest
    obtain ⟨rfl, htail⟩ := List.cons.inj heq
    obtain ⟨rfl, -⟩ := List.cons.inj htail
    exact ⟨hx, hx'⟩
  · rintro ⟨hx, hx'⟩
    have hrest : [x'].mapM f = some [y'] := mapM_cons_eq_some_iff.2 ⟨y', [], hx', rfl, rfl⟩
    exact mapM_cons_eq_some_iff.2 ⟨y, [y'], hx, hrest, rfl⟩

theorem forall_of_mapM_eq_some {α β : Type} {f : α → Option β} {p : β → Prop} {xs : List α}
    {ys : List β} (h : xs.mapM f = some ys) (hf : ∀ x ∈ xs, ∀ y, f x = some y → p y) :
    ∀ y ∈ ys, p y := by
  induction xs generalizing ys with
  | nil =>
    obtain rfl := Option.some.inj h
    exact fun y hy => absurd hy List.not_mem_nil
  | cons x rest ih =>
    obtain ⟨y, zs, hy, hzs, rfl⟩ := mapM_cons_eq_some_iff.1 h
    exact List.forall_mem_cons.2 ⟨hf x List.mem_cons_self y hy,
      ih hzs fun z hz => hf z (List.mem_cons_of_mem x hz)⟩

theorem split_of_mapM_eq_some {α β : Type} {f : α → Option β} {before after : List α} {x : α}
    {ys : List β} (h : (before ++ x :: after).mapM f = some ys) :
    ∃ earlier y later, before.mapM f = some earlier ∧ f x = some y ∧
      after.mapM f = some later ∧ ys = earlier ++ y :: later := by
  rw [List.mapM_append] at h
  obtain ⟨earlier, hearlier, h⟩ := Option.bind_eq_some_iff.1 h
  obtain ⟨rest, hrest, h⟩ := Option.bind_eq_some_iff.1 h
  obtain ⟨y, later, hy, hlater, rfl⟩ := mapM_cons_eq_some_iff.1 hrest
  exact ⟨earlier, y, later, hearlier, hy, hlater, (Option.some.inj h).symm⟩

theorem map_of_mapM_eq_some {α β γ : Type} {f : α → Option β} {g : β → γ} {k : α → γ} {xs : List α}
    {ys : List β} (h : xs.mapM f = some ys) (hf : ∀ x ∈ xs, ∀ y, f x = some y → g y = k x) :
    ys.map g = xs.map k := by
  induction xs generalizing ys with
  | nil =>
    obtain rfl := Option.some.inj h
    rfl
  | cons x rest ih =>
    obtain ⟨y, later, hy, hlater, rfl⟩ := mapM_cons_eq_some_iff.1 h
    rw [List.map_cons, List.map_cons, hf x List.mem_cons_self y hy,
      ih hlater fun z hz => hf z (List.mem_cons_of_mem x hz)]

theorem exists_mapM_eq_some {α β : Type} {f : α → Option β} {xs : List α}
    (h : ∀ x ∈ xs, ∃ y, f x = some y) : ∃ ys, xs.mapM f = some ys := by
  induction xs with
  | nil => exact ⟨[], rfl⟩
  | cons x rest ih =>
    obtain ⟨y, hy⟩ := h x List.mem_cons_self
    obtain ⟨ys, hys⟩ := ih fun z hz => h z (List.mem_cons_of_mem x hz)
    exact ⟨y :: ys, mapM_cons_eq_some_iff.2 ⟨y, ys, hy, hys, rfl⟩⟩

theorem NameMap.ofList_toList {α : Type} (m : NameMap α) : ofList m.toList = m := by
  ext1 name
  exact get?_ofList m.nodup_keys name

theorem RecordedRun.ofJson?_toJson (run : RecordedRun) : ofJson? run.toJson = some run := by
  rw [ofJson?, toJson, Json.fields?_record]
  obtain ⟨execution, comparison⟩ := run
  cases execution <;> cases comparison <;> rfl

namespace Record

theorem run?_toJson (run : RecordedRun) : run? run.toJson = some run := by
  have hsmall : run.toJson.depth ≤ maxDepth ∧ run.toJson.representable = true := by
    obtain ⟨execution, comparison⟩ := run
    cases execution <;> cases comparison <;> exact ⟨Nat.le_of_ble_eq_true rfl, rfl⟩
  rw [run?, if_pos hsmall, RecordedRun.ofJson?_toJson]

def hidesLabel (record : Record) : Bool := record.runs.contains labelKey

theorem mapM_run? (entries : List (String × RecordedRun)) :
    (entries.map fun entry => (entry.1, entry.2.toJson)).mapM (fun member =>
      (run? member.2).map fun run => (member.1, run)) = some entries := by
  induction entries with
  | nil => rfl
  | cons entry rest ih =>
    rw [List.map_cons, List.mapM_cons, ih, run?_toJson]
    rfl

theorem filter_members (record : Record) (p : String → Bool) :
    record.members.filter (fun member => p member.1) =
      (if p labelKey then record.expected.toList.map fun text => (labelKey, Json.text text) else [])
        ++ (record.runs.toList.filter fun entry => p entry.1).map fun entry =>
          (entry.1, entry.2.toJson) := by
  rw [members, List.filter_append]
  congr 1
  · cases record.expected <;> cases hp : p labelKey <;> simp [hp]
  · rw [List.filter_map]
    rfl

theorem hidesLabel_eq_false_iff {record : Record} :
    record.hidesLabel = false ↔ ∀ entry ∈ record.runs.toList, entry.1 ≠ labelKey := by
  rw [hidesLabel, NameMap.contains, Option.isSome_eq_false_iff, Option.isNone_iff_eq_none]
  constructor
  · rintro hnone ⟨name, run⟩ hentry rfl
    exact Option.some_ne_none _ ((NameMap.get?_eq_some_iff.2 hentry).symm.trans hnone)
  · intro hentries
    cases hrun : record.runs.get? labelKey with
    | none => rfl
    | some run => exact absurd rfl (hentries _ (NameMap.get?_eq_some_iff.1 hrun))

theorem ofMembers?_members {record : Record} (h : record.hidesLabel = false) :
    ofMembers? record.members = some record := by
  have hentries := hidesLabel_eq_false_iff.1 h
  have hown : record.runs.toList.filter (fun entry => entry.1 == labelKey) = [] :=
    List.filter_eq_nil_iff.2 fun entry hentry heq => hentries entry hentry (eq_of_beq heq)
  have hothers : record.runs.toList.filter (fun entry => entry.1 != labelKey) =
      record.runs.toList :=
    List.filter_eq_self.2 fun entry hentry => bne_iff_ne.2 (hentries entry hentry)
  have hunique : Json.unique? record.members labelKey = some (record.expected.map Json.text) := by
    rw [Json.unique?, filter_members record (· == labelKey), hown]
    cases record.expected <;> rfl
  have hruns : record.members.filter (·.1 != labelKey) =
      record.runs.toList.map fun entry => (entry.1, entry.2.toJson) := by
    rw [filter_members record (· != labelKey), hothers]
    rfl
  rw [ofMembers?, hunique, hruns, mapM_run?]
  obtain ⟨expected, runs⟩ := record
  cases expected <;> simp [Json.withDefault?, Json.nullable?, Json.text?, Json.text,
    NameMap.ofList_toList]

theorem hidesLabel_of_ofMembers? {members : List (String × Json)} {record : Record}
    (h : ofMembers? members = some record) : record.hidesLabel = false := by
  obtain ⟨expected, -, h⟩ := Option.bind_eq_some_iff.1 h
  obtain ⟨entries, hentries, h⟩ := Option.bind_eq_some_iff.1 h
  obtain ⟨label, -, h⟩ := Option.bind_eq_some_iff.1 h
  obtain rfl := Option.some.inj h
  have hnames : ∀ entry ∈ entries, entry.1 ≠ labelKey := by
    refine forall_of_mapM_eq_some hentries fun member hmember entry hentry => ?_
    obtain ⟨run, -, rfl⟩ := Option.map_eq_some_iff.1 hentry
    exact bne_iff_ne.1 (List.mem_filter.1 hmember).2
  exact hidesLabel_eq_false_iff.2 fun entry hentry => hnames entry (NameMap.mem_ofList hentry)

theorem hidesLabel_of_ofJson? {j : Json} {record : Record} (h : ofJson? j = some record) :
    record.hidesLabel = false := by
  cases j with
  | object members =>
    obtain ⟨named, -, hrecord⟩ := Option.bind_eq_some_iff.1 h
    exact hidesLabel_of_ofMembers? hrecord
  | _ => exact nomatch h

theorem ofMembers?_members_of_hidesLabel {record : Record} (h : record.hidesLabel = true) :
    ofMembers? record.members = none := by
  obtain ⟨run, hrun⟩ := Option.isSome_iff_exists.1 h
  have hentry : (labelKey, run) ∈ record.runs.toList.filter (fun entry => entry.1 == labelKey) :=
    List.mem_filter.2 ⟨NameMap.get?_eq_some_iff.1 hrun, BEq.rfl⟩
  have hlabel : ∀ label, Json.unique? record.members labelKey = some label →
      Json.withDefault? (Json.nullable? Json.text?) none label = none := by
    intro label hunique
    rw [Json.unique?, filter_members record (· == labelKey)] at hunique
    cases hown : record.runs.toList.filter fun entry => entry.1 == labelKey with
    | nil => exact absurd (hown ▸ hentry) List.not_mem_nil
    | cons entry rest =>
      rw [hown] at hunique
      cases hexpected : record.expected with
      | none =>
        rw [hexpected] at hunique
        cases rest with
        | nil =>
          obtain rfl := Option.some.inj hunique
          rfl
        | cons => exact nomatch hunique
      | some text =>
        rw [hexpected] at hunique
        exact nomatch hunique
  rw [ofMembers?]
  cases hunique : Json.unique? record.members labelKey with
  | none => rfl
  | some label =>
    cases hruns : (record.members.filter (·.1 != labelKey)).mapM fun member =>
        (run? member.2).map fun run => (member.1, run) with
    | none => rfl
    | some entries => simp [hlabel label hunique]

theorem ofJson?_toJson (record : Record) :
    ofJson? record.toJson = if record.hidesLabel then none else some record := by
  rw [toJson, Json.record, ofJson?, Json.keyed?_map_some, Option.bind_some]
  cases h : record.hidesLabel with
  | false => exact ofMembers?_members h
  | true => exact ofMembers?_members_of_hidesLabel h

end Record

namespace RecordFile

def hidesLabel (file : RecordFile) : Bool := file.toList.any fun entry => entry.2.hidesLabel

theorem mapM_ofJson? (entries : List (String × Record)) :
    (entries.map fun entry => (entry.1, entry.2.toJson)).mapM (fun member =>
      (Record.ofJson? member.2).map fun record => (member.1, record)) =
      if entries.any fun entry => entry.2.hidesLabel then none else some entries := by
  induction entries with
  | nil => rfl
  | cons entry rest ih =>
    rw [List.map_cons, List.mapM_cons, ih, Record.ofJson?_toJson, List.any_cons]
    cases entry.2.hidesLabel <;> cases rest.any fun entry => entry.2.hidesLabel <;> rfl

/-- Writing and reading gives back the file or fails; it never gives another file. -/
theorem read_write (path : String) (file : RecordFile) :
    read path (write file) =
      if hidesLabel file then .error (.malformedRecords path) else .ok file := by
  have hentries : entries? (toJson file) = if hidesLabel file then none else some file.toList := by
    rw [toJson, Json.record, entries?, Json.keyed?_map_some]
    exact mapM_ofJson? file.toList
  rw [read, write, Json.read?_pretty, Option.bind_some, hentries]
  cases hidesLabel file with
  | true => rfl
  | false =>
    have hnodup : NameSet.firstRepeat (file.toList.map Prod.fst) = none :=
      NameSet.firstRepeat_eq_none_iff.2 (NameMap.nodup_keys file)
    simp only [Bool.false_eq_true, if_false, hnodup, NameMap.ofList_toList]

theorem hidesLabel_iff {file : RecordFile} : hidesLabel file = true ↔
    ∃ scenario record run, file.get? scenario = some record ∧
      record.runs.get? "expected" = some run := by
  simp only [hidesLabel, Record.hidesLabel, NameMap.contains, List.any_eq_true,
    Option.isSome_iff_exists]
  constructor
  · rintro ⟨⟨scenario, record⟩, hentry, run, hrun⟩
    exact ⟨scenario, record, run, NameMap.get?_eq_some_iff.2 hentry, hrun⟩
  · rintro ⟨scenario, record, run, hrecord, hrun⟩
    exact ⟨(scenario, record), NameMap.get?_eq_some_iff.1 hrecord, run, hrun⟩

theorem exists_read_eq_ofList {path text : String} {file : RecordFile}
    (h : read path text = .ok file) :
    ∃ j entries, entries? j = some entries ∧ file = .ofList entries := by
  unfold read at h
  split at h
  · exact nomatch h
  · next entries hentries =>
    split at h
    · exact nomatch h
    · obtain ⟨j, -, hj⟩ := Option.bind_eq_some_iff.1 hentries
      exact ⟨j, entries, hj, (Except.ok.inj h).symm⟩

theorem hidesLabel_of_entries? {j : Json} {entries : List (String × Record)}
    (h : entries? j = some entries) : ∀ entry ∈ entries, entry.2.hidesLabel = false := by
  cases j with
  | object members =>
    obtain ⟨named, -, hentries⟩ := Option.bind_eq_some_iff.1 h
    refine forall_of_mapM_eq_some hentries fun member _ entry hentry => ?_
    obtain ⟨record, hrecord, rfl⟩ := Option.map_eq_some_iff.1 hentry
    exact Record.hidesLabel_of_ofJson? hrecord
  | _ => exact nomatch h

theorem hidesLabel_of_read {path text : String} {file : RecordFile}
    (h : read path text = .ok file) : hidesLabel file = false := by
  obtain ⟨j, entries, hentries, rfl⟩ := exists_read_eq_ofList h
  rw [hidesLabel, List.any_eq_false]
  intro entry hentry
  rw [hidesLabel_of_entries? hentries entry (NameMap.mem_ofList hentry)]
  exact Bool.false_ne_true

/-- A file survives writing and reading unless it has a strategy named `expected`; then it cannot
be read. A file that was read has none. -/
theorem read_after_write (path : String) (file : RecordFile) :
    ((¬∃ scenario record run, file.get? scenario = some record ∧
        record.runs.get? "expected" = some run) → read path (write file) = .ok file) ∧
    ((∃ scenario record run, file.get? scenario = some record ∧
        record.runs.get? "expected" = some run) →
      read path (write file) = .error (.malformedRecords path)) ∧
    ∀ source text, read source text = .ok file →
      (¬∃ scenario record run, file.get? scenario = some record ∧
        record.runs.get? "expected" = some run) ∧
      ∃ again, read path (write file) = .ok again ∧ again = file ∧ write again = write file := by
  simp only [← hidesLabel_iff, Bool.not_eq_true]
  refine ⟨fun h => ?_, fun h => ?_, fun source text hread => ?_⟩
  · rw [read_write, h]
    rfl
  · rw [read_write, h]
    rfl
  · have h := hidesLabel_of_read hread
    refine ⟨h, file, ?_, rfl, rfl⟩
    rw [read_write, h]
    rfl

def twoScenarios (strategy : String) : RecordFile :=
  .ofList [("\"S\"\n", ⟨some "CONFLICT", .ofList [(strategy, ⟨some "", none⟩)]⟩),
    ("Ω", ⟨none, ∅⟩)]

theorem twoScenarios_read_after_write :
    read "r.json" (write (twoScenarios "A")) = .ok (twoScenarios "A") ∧
    read "r.json" (write (twoScenarios "expected")) = .error (.malformedRecords "r.json") ∧
    ∃ again, read "s.json" (write (twoScenarios "A")) = .ok again ∧
      write again = write (twoScenarios "A") := by
  have hplain : ¬∃ scenario record run, (twoScenarios "A").get? scenario = some record ∧
      record.runs.get? "expected" = some run := by
    rw [← hidesLabel_iff]
    decide
  have hhidden : ∃ scenario record run, (twoScenarios "expected").get? scenario = some record ∧
      record.runs.get? "expected" = some run :=
    hidesLabel_iff.1 (by decide)
  have hread := (read_after_write "r.json" (twoScenarios "A")).1 hplain
  obtain ⟨-, again, hagain, -, hwrite⟩ :=
    (read_after_write "s.json" (twoScenarios "A")).2.2 "r.json" _ hread
  exact ⟨hread, (read_after_write "r.json" (twoScenarios "expected")).2.1 hhidden, again, hagain,
    hwrite⟩

end RecordFile
end MergeTrial
