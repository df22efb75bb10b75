import MergeTrial.Proofs.Records.RoundTrip

/-! What a record file says, member by member. A scenario that is named twice is refused, once all
of the file can be read; a strategy that is named twice in a record is what its last entry says. -/

namespace MergeTrial

namespace Json
variable {members : List (String × Json)} {key : String}

theorem keyed?_eq_some_iff {raw : List (Option String × Json)} :
    keyed? raw = some members ↔ raw = members.map fun member => (some member.1, member.2) := by
  constructor
  · intro h
    have hsame : members.map (fun member => (some member.1, member.2)) = raw.map id := by
      refine map_of_mapM_eq_some h fun entry _ member hmember => ?_
      obtain ⟨key, hkey, rfl⟩ := Option.map_eq_some_iff.1 hmember
      rw [← hkey, id]
    rw [hsame, List.map_id]
  · rintro rfl
    exact keyed?_map_some members

theorem eq_record_iff {raw : List (Option String × Json)} :
    object raw = record members ↔ keyed? raw = some members := by
  rw [keyed?_eq_some_iff, record, Json.object.injEq]

theorem record_inj {others : List (String × Json)} :
    record members = record others ↔ members = others :=
  ⟨fun h => Option.some.inj ((keyed?_map_some members).symm.trans (eq_record_iff.1 h)),
    congrArg record⟩

def valuesOf (members : List (String × Json)) (key : String) : List Json :=
  (members.filter (·.1 == key)).map Prod.snd

theorem unique?_eq_some_iff {field : Option Json} :
    unique? members key = some field ↔ valuesOf members key = field.toList := by
  rw [unique?, valuesOf]
  cases members.filter (·.1 == key) with
  | nil => cases field <;> simp
  | cons member rest =>
    cases rest with
    | nil => cases field <;> simp
    | cons => cases field <;> simp

def IsTextField (values : List Json) : Option String → Prop
  | none => values = [] ∨ values = [.null]
  | some content => values = [text content]

theorem isTextField_toList_iff {field : Option Json} {content : Option String} :
    IsTextField field.toList content ↔
      withDefault? (nullable? text?) none field = some content := by
  cases field with
  | none => cases content <;> simp [IsTextField, withDefault?]
  | some j =>
    cases j with
    | null => cases content <;> simp [IsTextField, withDefault?, nullable?, text]
    | string found =>
      cases found <;> cases content <;>
        simp [IsTextField, withDefault?, nullable?, text?, text]
    | _ => cases content <;> simp [IsTextField, withDefault?, nullable?, text?, text]

theorem isTextField_iff {values : List Json} {content : Option String} :
    IsTextField values content ↔ ∃ field : Option Json, values = field.toList ∧
      withDefault? (nullable? text?) none field = some content := by
  simp only [← isTextField_toList_iff]
  constructor
  · intro h
    have hfield : ∃ field : Option Json, values = field.toList := by
      cases content with
      | none =>
        rcases h with rfl | rfl
        · exact ⟨none, rfl⟩
        · exact ⟨some .null, rfl⟩
      | some content => exact ⟨some (text content), h⟩
    obtain ⟨field, rfl⟩ := hfield
    exact ⟨field, rfl, h⟩
  · rintro ⟨field, rfl, h⟩
    exact h

theorem isTextField_valuesOf_iff {content : Option String} :
    IsTextField (valuesOf members key) content ↔ ∃ field, unique? members key = some field ∧
      withDefault? (nullable? text?) none field = some content := by
  simp only [isTextField_iff, unique?_eq_some_iff]

end Json

namespace RecordedRun

def HasFields (j : Json) (run : RecordedRun) : Prop :=
  (∃ members, j = .record members ∧
    Json.IsTextField (Json.valuesOf members "execution") run.execution ∧
    Json.IsTextField (Json.valuesOf members "comparison") run.comparison) ∨
  ∃ execution comparison, j = .array (execution ++ comparison) ∧
    (execution = [] → comparison = []) ∧ Json.IsTextField execution run.execution ∧
    Json.IsTextField comparison run.comparison

/-- What an entry denotes. It must not be nested too deeply, and nothing in it may be more than can
be held. -/
structure IsOf (j : Json) (run : RecordedRun) : Prop where
  shallow : j.depth ≤ Record.maxDepth
  representable : j.representable = true
  fields : HasFields j run

theorem ofJson?_eq_some_iff_fields? {j : Json} {run : RecordedRun} : ofJson? j = some run ↔
    ∃ execution comparison, j.fields? ["execution", "comparison"] = some [execution, comparison] ∧
      Json.withDefault? (Json.nullable? Json.text?) none execution = some run.execution ∧
      Json.withDefault? (Json.nullable? Json.text?) none comparison = some run.comparison := by
  rw [ofJson?]
  constructor
  · intro h
    obtain ⟨fields, hfields, h⟩ := Option.bind_eq_some_iff.1 h
    split at h
    · next execution comparison =>
      obtain ⟨first, hfirst, h⟩ := Option.bind_eq_some_iff.1 h
      obtain ⟨second, hsecond, h⟩ := Option.bind_eq_some_iff.1 h
      obtain rfl := Option.some.inj h
      exact ⟨execution, comparison, hfields, hfirst, hsecond⟩
    · cases h
  · rintro ⟨execution, comparison, hfields, hexecution, hcomparison⟩
    rw [hfields]
    simp [hexecution, hcomparison]

theorem fields?_object_iff {raw : List (Option String × Json)}
    {execution comparison : Option Json} :
    (Json.object raw).fields? ["execution", "comparison"] = some [execution, comparison] ↔
      ∃ members, Json.object raw = .record members ∧
        Json.unique? members "execution" = some execution ∧
        Json.unique? members "comparison" = some comparison := by
  constructor
  · intro h
    obtain ⟨members, hmembers, -⟩ := Option.bind_eq_some_iff.1 h
    have hrecord : Json.object raw = .record members := Json.eq_record_iff.2 hmembers
    rw [hrecord, Json.fields?_record] at h
    exact ⟨members, hrecord, mapM_pair_eq_some_iff.1 h⟩
  · rintro ⟨members, hrecord, h⟩
    rw [hrecord, Json.fields?_record]
    exact mapM_pair_eq_some_iff.2 h

theorem fields?_array_iff {items : List Json} {execution comparison : Option Json} :
    (Json.array items).fields? ["execution", "comparison"] = some [execution, comparison] ↔
      items = execution.toList ++ comparison.toList ∧ (execution = none → comparison = none) := by
  rw [Json.fields?]
  rcases items with _ | ⟨first, _ | ⟨second, _ | ⟨third, rest⟩⟩⟩
  · cases execution <;> cases comparison <;> simp
  · cases execution <;> cases comparison <;> simp
  · cases execution <;> cases comparison <;> simp
  · have hlong : ¬(first :: second :: third :: rest).length ≤ ["execution", "comparison"].length :=
      Nat.not_le.2 (Nat.lt_add_left rest.length (Nat.lt_succ_self 2))
    rw [if_neg hlong]
    cases execution <;> cases comparison <;> simp

theorem ofJson?_eq_some_iff {j : Json} {run : RecordedRun} :
    ofJson? j = some run ↔ HasFields j run := by
  rw [ofJson?_eq_some_iff_fields?, HasFields]
  simp only [Json.isTextField_valuesOf_iff]
  cases j with
  | object raw =>
    simp only [fields?_object_iff]
    constructor
    · rintro ⟨execution, comparison, ⟨members, hj, hfirst, hsecond⟩, hexecution, hcomparison⟩
      exact Or.inl ⟨members, hj, ⟨_, hfirst, hexecution⟩, _, hsecond, hcomparison⟩
    · rintro (⟨members, hj, ⟨_, hfirst, hexecution⟩, _, hsecond, hcomparison⟩ | ⟨_, _, h, -⟩)
      · exact ⟨_, _, ⟨members, hj, hfirst, hsecond⟩, hexecution, hcomparison⟩
      · exact nomatch h
  | array items =>
    simp only [fields?_array_iff, Json.array.injEq, Json.isTextField_iff]
    constructor
    · rintro ⟨execution, comparison, ⟨rfl, hfirst⟩, hexecution, hcomparison⟩
      refine Or.inr ⟨_, _, rfl, fun h => ?_, ⟨_, rfl, hexecution⟩, _, rfl, hcomparison⟩
      rw [hfirst (Option.toList_eq_nil_iff.1 h), Option.toList_none]
    · rintro (⟨_, h, -⟩ | ⟨_, _, rfl, hfirst, ⟨_, rfl, hexecution⟩, _, rfl, hcomparison⟩)
      · exact nomatch h
      · refine ⟨_, _, ⟨rfl, fun h => ?_⟩, hexecution, hcomparison⟩
        exact Option.toList_eq_nil_iff.1 (hfirst (Option.toList_eq_nil_iff.2 h))
  | _ => simp [Json.fields?, Json.record]

end RecordedRun

theorem exists_last_of_mem {α : Type} {members : List (String × α)} {key : String}
    (h : key ∈ members.map Prod.fst) : ∃ before value after,
      members = before ++ (key, value) :: after ∧ key ∉ after.map Prod.fst := by
  induction members with
  | nil => exact absurd h List.not_mem_nil
  | cons member rest ih =>
    by_cases hrest : key ∈ rest.map Prod.fst
    · obtain ⟨before, value, after, rfl, hafter⟩ := ih hrest
      exact ⟨member :: before, value, after, rfl, hafter⟩
    · obtain rfl := (List.mem_cons.1 h).resolve_right hrest
      exact ⟨[], member.2, rest, rfl, hrest⟩

namespace Record
variable {members : List (String × Json)} {record : Record}

theorem run?_eq_some_iff {j : Json} {run : RecordedRun} :
    run? j = some run ↔ RecordedRun.IsOf j run := by
  rw [run?, Option.ite_none_right_eq_some, RecordedRun.ofJson?_eq_some_iff]
  exact ⟨fun h => ⟨h.1.1, h.1.2, h.2⟩, fun h => ⟨⟨h.shallow, h.representable⟩, h.fields⟩⟩

/-- What the members of a record denote: its label, and for every other key, each entry of which
must be readable, the last entry. -/
structure HasMembers (members : List (String × Json)) (record : Record) : Prop where
  label : Json.IsTextField (Json.valuesOf members "expected") record.expected
  readable : ∀ name value, (name, value) ∈ members → name ≠ "expected" →
    ∃ run, RecordedRun.IsOf value run
  last : ∀ before name value after, members = before ++ (name, value) :: after →
    name ≠ "expected" → name ∉ after.map Prod.fst →
    ∃ run, RecordedRun.IsOf value run ∧ record.runs.get? name = some run
  only : ∀ name run, record.runs.get? name = some run →
    name ≠ "expected" ∧ name ∈ members.map Prod.fst

theorem HasMembers.unique {other : Record} (h : HasMembers members record)
    (hother : HasMembers members other) : record = other := by
  have hexpected : record.expected = other.expected := by
    obtain ⟨field, hfield, hcontent⟩ := Json.isTextField_valuesOf_iff.1 h.label
    obtain ⟨_, hsame, hcontent'⟩ := Json.isTextField_valuesOf_iff.1 hother.label
    obtain rfl := Option.some.inj (hfield.symm.trans hsame)
    exact Option.some.inj (hcontent.symm.trans hcontent')
  have hruns : record.runs = other.runs := by
    ext1 name
    by_cases hname : name ≠ "expected" ∧ name ∈ members.map Prod.fst
    · obtain ⟨before, value, after, hsplit, hafter⟩ := exists_last_of_mem hname.2
      obtain ⟨run, hrun, hget⟩ := h.last before name value after hsplit hname.1 hafter
      obtain ⟨run', hrun', hget'⟩ := hother.last before name value after hsplit hname.1 hafter
      have hsame := (run?_eq_some_iff.2 hrun).symm.trans (run?_eq_some_iff.2 hrun')
      obtain rfl := Option.some.inj hsame
      rw [hget, hget']
    · have hnone : ∀ r : Record, HasMembers members r → r.runs.get? name = none := fun r hr =>
        Option.eq_none_iff_forall_ne_some.2 fun run hrun => hname (hr.only name run hrun)
      rw [hnone record h, hnone other hother]
  obtain ⟨expected, runs⟩ := record
  obtain rfl : expected = other.expected := hexpected
  obtain rfl : runs = other.runs := hruns
  rfl

theorem hasMembers_of_ofMembers? (h : ofMembers? members = some record) :
    HasMembers members record := by
  obtain ⟨field, hfield, h⟩ := Option.bind_eq_some_iff.1 h
  obtain ⟨entries, hentries, h⟩ := Option.bind_eq_some_iff.1 h
  obtain ⟨expected, hexpected, h⟩ := Option.bind_eq_some_iff.1 h
  obtain rfl := Option.some.inj h
  -- the members other than the label and the entries read from them stand in the same order
  have hsplit : ∀ before name value after, members = before ++ (name, value) :: after →
      name ≠ "expected" → ∃ earlier run later, RecordedRun.IsOf value run ∧
        (after.filter (·.1 != labelKey)).mapM (fun member =>
          (run? member.2).map fun run => (member.1, run)) = some later ∧
        entries = earlier ++ (name, run) :: later := by
    rintro before name value after rfl hname
    have hkeep : ((name, value).1 != labelKey) = true := bne_iff_ne.2 hname
    rw [List.filter_append, List.filter_cons, if_pos hkeep] at hentries
    obtain ⟨earlier, entry, later, -, hentry, hlater, rfl⟩ := split_of_mapM_eq_some hentries
    obtain ⟨run, hrun, rfl⟩ := Option.map_eq_some_iff.1 hentry
    exact ⟨earlier, run, later, run?_eq_some_iff.1 hrun, hlater, rfl⟩
  have hkept : ∀ entry ∈ entries, entry.1 ≠ "expected" ∧ entry.1 ∈ members.map Prod.fst := by
    refine forall_of_mapM_eq_some hentries fun member hmember entry hentry => ?_
    obtain ⟨run, -, rfl⟩ := Option.map_eq_some_iff.1 hentry
    obtain ⟨hmem, hname⟩ := List.mem_filter.1 hmember
    exact ⟨bne_iff_ne.1 hname, List.mem_map_of_mem hmem⟩
  constructor
  case label => exact Json.isTextField_valuesOf_iff.2 ⟨field, hfield, hexpected⟩
  case readable =>
    intro name value hmem hname
    obtain ⟨before, after, hmembers⟩ := List.append_of_mem hmem
    obtain ⟨_, run, _, hrun, -⟩ := hsplit before name value after hmembers hname
    exact ⟨run, hrun⟩
  case last =>
    intro before name value after hmembers hname hafter
    obtain ⟨earlier, run, later, hrun, hlater, rfl⟩ := hsplit before name value after hmembers hname
    refine ⟨run, hrun, NameMap.get?_ofList_last fun hmem => hafter ?_⟩
    have hnames : ∀ entry ∈ later, entry.1 ∈ after.map Prod.fst := by
      refine forall_of_mapM_eq_some hlater fun member hmember entry hentry => ?_
      obtain ⟨_, -, rfl⟩ := Option.map_eq_some_iff.1 hentry
      exact List.mem_map_of_mem (List.mem_filter.1 hmember).1
    obtain ⟨entry, hentry, rfl⟩ := List.mem_map.1 hmem
    exact hnames entry hentry
  case only =>
    intro name run hrun
    exact hkept _ (NameMap.mem_ofList (NameMap.get?_eq_some_iff.1 hrun))

theorem ofMembers?_eq_some_iff : ofMembers? members = some record ↔ HasMembers members record := by
  refine ⟨hasMembers_of_ofMembers?, fun h => ?_⟩
  -- the members denote one record only, so it is enough that some record is read
  have hsome : ∃ found, ofMembers? members = some found := by
    obtain ⟨field, hfield, hexpected⟩ := Json.isTextField_valuesOf_iff.1 h.label
    have hentries : ∃ entries, (members.filter (·.1 != labelKey)).mapM (fun member =>
        (run? member.2).map fun run => (member.1, run)) = some entries := by
      refine exists_mapM_eq_some fun member hmember => ?_
      obtain ⟨hmem, hname⟩ := List.mem_filter.1 hmember
      obtain ⟨run, hrun⟩ := h.readable member.1 member.2 hmem (bne_iff_ne.1 hname)
      exact ⟨(member.1, run), by rw [run?_eq_some_iff.2 hrun]; rfl⟩
    obtain ⟨entries, hentries⟩ := hentries
    refine ⟨⟨record.expected, .ofList entries⟩, Option.bind_eq_some_iff.2 ⟨field, hfield, ?_⟩⟩
    refine Option.bind_eq_some_iff.2 ⟨entries, hentries, ?_⟩
    exact Option.bind_eq_some_iff.2 ⟨record.expected, hexpected, rfl⟩
  obtain ⟨found, hfound⟩ := hsome
  exact hfound.trans (congrArg some ((hasMembers_of_ofMembers? hfound).unique h))

def IsOf (j : Json) (record : Record) : Prop :=
  ∃ members, j = .record members ∧ HasMembers members record

theorem ofJson?_eq_some_iff {j : Json} : ofJson? j = some record ↔ IsOf j record := by
  unfold IsOf
  simp only [← ofMembers?_eq_some_iff]
  cases j with
  | object raw =>
    simp only [Json.eq_record_iff]
    exact Option.bind_eq_some_iff
  | _ => exact ⟨nofun, fun ⟨_, h, _⟩ => nomatch h⟩

end Record

namespace RecordFile
variable {members : List (String × Json)} {entries : List (String × Record)}

theorem entries?_record (members : List (String × Json)) : entries? (.record members) =
    members.mapM fun member =>
      (Record.ofJson? member.2).map fun record => (member.1, record) := by
  rw [Json.record, entries?, Json.keyed?_map_some]
  rfl

theorem exists_members_of_entries? {j : Json} (h : entries? j = some entries) :
    ∃ members, j = .record members := by
  cases j with
  | object raw =>
    obtain ⟨members, hmembers, -⟩ := Option.bind_eq_some_iff.1 h
    exact ⟨members, Json.eq_record_iff.2 hmembers⟩
  | _ => exact nomatch h

theorem exists_entry_of_member (h : entries? (.record members) = some entries) {name : String}
    {value : Json} (hmember : (name, value) ∈ members) :
    ∃ record, (name, record) ∈ entries ∧ Record.IsOf value record := by
  rw [entries?_record] at h
  obtain ⟨before, after, rfl⟩ := List.append_of_mem hmember
  obtain ⟨earlier, _, later, -, hentry, -, rfl⟩ := split_of_mapM_eq_some h
  obtain ⟨record, hrecord, rfl⟩ := Option.map_eq_some_iff.1 hentry
  exact ⟨record, List.mem_append_right _ List.mem_cons_self, Record.ofJson?_eq_some_iff.1 hrecord⟩

theorem map_fst_of_entries? (h : entries? (.record members) = some entries) :
    entries.map Prod.fst = members.map Prod.fst := by
  rw [entries?_record] at h
  refine map_of_mapM_eq_some h fun member _ entry hentry => ?_
  obtain ⟨_, -, rfl⟩ := Option.map_eq_some_iff.1 hentry
  rfl

theorem exists_entries? (h : ∀ name value, (name, value) ∈ members →
    ∃ record, Record.IsOf value record) : ∃ entries, entries? (.record members) = some entries := by
  rw [entries?_record]
  refine exists_mapM_eq_some fun member hmember => ?_
  obtain ⟨record, hrecord⟩ := h member.1 member.2 hmember
  exact ⟨(member.1, record), by rw [Record.ofJson?_eq_some_iff.2 hrecord]; rfl⟩

/-- A text is refused as malformed unless it is one object whose members are all records, repeated
or not. Of a text that is, the first scenario that is named again is refused; if there is none, the
file has one record for each member, with what the member says. -/
theorem read_refuses_repeats (path text : String) :
    ((¬∃ members, Json.read? text = some (.record members) ∧
        ∀ name value, (name, value) ∈ members → ∃ record, Record.IsOf value record) →
      read path text = .error (.malformedRecords path)) ∧
    ∀ members, Json.read? text = some (.record members) →
      (∀ name value, (name, value) ∈ members → ∃ record, Record.IsOf value record) →
      (∀ before name value after, members = before ++ (name, value) :: after →
        (before.map Prod.fst).Nodup → name ∈ before.map Prod.fst →
        read path text = .error (.repeatedScenario name)) ∧
      ((members.map Prod.fst).Nodup → ∃ file, read path text = .ok file ∧
        (NameMap.keys file).Perm (members.map Prod.fst) ∧
        ∀ name value, (name, value) ∈ members →
          ∃ record, file.get? name = some record ∧ Record.IsOf value record) := by
  constructor
  · intro hmalformed
    have hnone : (Json.read? text).bind entries? = none := by
      refine Option.eq_none_iff_forall_ne_some.2 fun entries hentries => hmalformed ?_
      obtain ⟨j, hj, hentries⟩ := Option.bind_eq_some_iff.1 hentries
      obtain ⟨members, rfl⟩ := exists_members_of_entries? hentries
      refine ⟨members, hj, fun name value hmember => ?_⟩
      obtain ⟨record, -, hrecord⟩ := exists_entry_of_member hentries hmember
      exact ⟨record, hrecord⟩
    rw [read, hnone]
  · intro members hread hreadable
    obtain ⟨entries, hentries⟩ := exists_entries? hreadable
    have hnames := map_fst_of_entries? hentries
    constructor
    · rintro before name value after rfl hbefore hname
      have hrepeat : NameSet.firstRepeat ((before ++ (name, value) :: after).map Prod.fst) =
          some name := by
        rw [List.map_append, List.map_cons]
        exact NameSet.firstRepeat_eq_some_iff.2 ⟨_, _, rfl, hbefore, hname⟩
      simp only [read, hread, Option.bind_some, hentries, hnames, hrepeat]
    · intro hnodup
      refine ⟨.ofList entries, ?_, ?_, fun name value hmember => ?_⟩
      · have hnone := NameSet.firstRepeat_eq_none_iff.2 hnodup
        simp only [read, hread, Option.bind_some, hentries, hnames, hnone]
      · refine (List.perm_ext_iff_of_nodup (NameMap.nodup_keys _) hnodup).2 fun name => ?_
        rw [NameMap.mem_keys_ofList, hnames]
      · obtain ⟨record, hentry, hrecord⟩ := exists_entry_of_member hentries hmember
        exact ⟨record, (NameMap.get?_ofList_eq_some_iff (hnames ▸ hnodup)).2 hentry, hrecord⟩

/-- The key that is repeated is spelled differently, and in the second text what stands under it
is not a record. -/
theorem escapedKey_read_refuses_repeats :
    read "records.json" "\x7b\"S\":\x7b\x7d,\"\\u0053\":\x7b\x7d\x7d" =
      .error (.repeatedScenario "S") ∧
    read "records.json" "\x7b\"S\":\x7b\x7d,\"\\u0053\":[]\x7d" =
      .error (.malformedRecords "records.json") := by
  constructor
  · have hread : Json.read? "\x7b\"S\":\x7b\x7d,\"\\u0053\":\x7b\x7d\x7d" =
        some (.record [("S", .record []), ("S", .record [])]) := rfl
    have hempty : Record.HasMembers [] ⟨none, .ofList []⟩ := Record.ofMembers?_eq_some_iff.1 rfl
    refine ((read_refuses_repeats "records.json" _).2 _ hread fun name value hmember => ?_).1
      [("S", .record [])] "S" (.record []) [] rfl (by decide) (by decide)
    obtain ⟨-, rfl⟩ : name = "S" ∧ value = .record [] := by simpa using hmember
    exact ⟨_, [], rfl, hempty⟩
  · have hread : Json.read? "\x7b\"S\":\x7b\x7d,\"\\u0053\":[]\x7d" =
        some (.record [("S", .record []), ("S", .array [])]) := rfl
    refine (read_refuses_repeats "records.json" _).1 ?_
    rintro ⟨members, hmembers, hreadable⟩
    obtain rfl := Json.record_inj.1 (Option.some.inj (hread.symm.trans hmembers))
    obtain ⟨_, _, h, -⟩ := hreadable "S" (.array []) (List.mem_cons_of_mem _ List.mem_cons_self)
    exact nomatch h

end RecordFile
end MergeTrial
