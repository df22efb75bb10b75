import MergeTrial.Proofs.Records.RoundTrip
import MergeTrial.Settings

/-! Written settings read back as they were: every part of a record is found under its own name, and
no default takes the place of what is written. -/

namespace MergeTrial

namespace Json
variable {α β : Type} {f : Json → Option α} {g : Json → Option β} {encode : α → Json}

theorem unique?_of_nodup {members : List (String × Json)} (h : (members.map Prod.fst).Nodup)
    (key : String) : unique? members key = some (members.lookup key) := by
  induction members with
  | nil => rfl
  | cons member rest ih =>
    obtain ⟨hmember, hrest⟩ := List.nodup_cons.1 h
    obtain ⟨name, value⟩ := member
    rw [List.lookup_cons]
    cases hkey : key == name with
    | true =>
      obtain rfl := eq_of_beq hkey
      have hnone : rest.filter (fun member => member.1 == key) = [] :=
        List.filter_eq_nil_iff.2 fun member hmem heq =>
          hmember (List.mem_map.2 ⟨member, hmem, eq_of_beq heq⟩)
      simp [unique?, hnone]
    | false =>
      have hskip : (name == key) = false := by rw [BEq.comm, hkey]
      simpa [unique?, List.filter_cons, hskip] using ih hrest

theorem fields?_of_nodup (keys : List String) {members : List (String × Json)}
    (hkeys : members.map Prod.fst = keys) (h : keys.Nodup) (names : List String) :
    fields? names (record members) = some (names.map fun name => members.lookup name) := by
  rw [fields?_record, funext (unique?_of_nodup (hkeys ▸ h))]
  exact List.mapM_pure

theorem int?_int {low high n : Int} (h : low ≤ n ∧ n ≤ high) : int? low high (.int n) = some n :=
  if_pos h

theorem nat?_nat {bound n : Nat} (h : n ≤ bound) : nat? bound (nat n) = some n := by
  rw [nat?, nat, int?_int ⟨Int.natCast_nonneg n, Int.ofNat_le.2 h⟩]
  rfl

theorem pair?_array {x y : Json} {a : α} {b : β} (hx : f x = some a) (hy : g y = some b) :
    pair? f g (.array [x, y]) = some (a, b) := by
  rw [pair?, hx, hy]
  rfl

theorem list?_array {xs : List α} (h : ∀ x ∈ xs, f (encode x) = some x) :
    list? f (.array (xs.map encode)) = some xs := by
  induction xs with
  | nil => rfl
  | cons x xs ih =>
    have hrest := ih fun y hy => h y (List.mem_cons_of_mem x hy)
    exact mapM_cons_eq_some_iff.2 ⟨x, xs, h x List.mem_cons_self, hrest, rfl⟩

theorem list?_texts (texts : List String) : list? text? (.texts texts) = some texts :=
  list?_array fun _ _ => rfl

theorem nullable?_nullable {x : Option α}
    (h : ∀ a ∈ x, f (encode a) = some a ∧ encode a ≠ .null) :
    nullable? f (nullable encode x) = some x := by
  cases x with
  | none => rfl
  | some a =>
    obtain ⟨hread, hsome⟩ := h a rfl
    rw [nullable, nullable?]
    · rw [hread]
      rfl
    · exact hsome

theorem nullable?_text (text : Option String) :
    nullable? text? (nullable Json.text text) = some text :=
  nullable?_nullable fun _ _ => ⟨rfl, nofun⟩

end Json

theorem Policy.ofJson?_toJson (policy : Policy) : ofJson? policy.toJson = some policy :=
  policy.ofName?_name

namespace ToolSpec

structure InRange (spec : ToolSpec) : Prop where
  exits : ∀ range ∈ spec.conflictExits, ∀ code ∈ [range.1, range.2],
    Int32.minValue.toInt ≤ code ∧ code ≤ Int32.maxValue.toInt
  build : spec.buildTimeout ≤ wordMax

variable {spec : ToolSpec}

theorem InRange.ofJson?_exits (h : spec.InRange) :
    Json.nullable? (Json.pair? exitCode? exitCode?) (Json.nullable
      (fun range => .array [.int range.1, .int range.2]) spec.conflictExits) =
        some spec.conflictExits := by
  refine Json.nullable?_nullable fun range hrange => ⟨?_, nofun⟩
  have hcode : ∀ code ∈ [range.1, range.2], exitCode? (.int code) = some code :=
    fun code hmem => Json.int?_int (h.exits range hrange code hmem)
  exact Json.pair?_array (hcode _ List.mem_cons_self)
    (hcode _ (List.mem_cons_of_mem _ List.mem_cons_self))

theorem ofJson?_toJson (h : spec.InRange) : ofJson? spec.toJson = some spec := by
  have hcandidates : Json.list? (Json.list? Json.text?) (.array (spec.candidates.map .texts)) =
      some spec.candidates := Json.list?_array fun _ _ => Json.list?_texts _
  have hbuild : Json.nullable? (Json.list? Json.text?) (Json.nullable Json.texts spec.build) =
      some spec.build := Json.nullable?_nullable fun _ _ => ⟨Json.list?_texts _, nofun⟩
  have htimeout : Json.nat? wordMax (.nat spec.buildTimeout) = some spec.buildTimeout :=
    Json.nat?_nat h.build
  have hfields : spec.toJson.fields? fieldNames = some [some (.text spec.name),
      some (.array (spec.candidates.map .texts)), some (Json.nullable
        (fun range => .array [.int range.1, .int range.2]) spec.conflictExits),
      some (.bool spec.detectMarkers), some (Json.nullable Json.texts spec.build),
      some (.nat spec.buildTimeout), some (Json.nullable Json.text spec.workingDir)] :=
    Json.fields?_of_nodup fieldNames rfl (by decide) fieldNames
  rw [ofJson?, hfields]
  simp only [Option.bind_eq_bind, Option.bind_some, Json.required?, Json.withDefault?, hcandidates,
    h.ofJson?_exits, hbuild, htimeout, Json.nullable?_text]
  rfl

end ToolSpec

namespace PassSettings

structure InRange (s : PassSettings) : Prop where
  timeout : s.timeout ≤ wordMax
  jobs : s.jobs ≤ wordMax

theorem ofJson?_toJson {s : PassSettings} (h : s.InRange) : ofJson? s.toJson = some s := by
  obtain ⟨timeout, jobs, policy, scratchDir⟩ := s
  have htimeout : Json.nat? wordMax (.nat timeout) = some timeout := Json.nat?_nat h.timeout
  have hjobs : Json.nat? wordMax (.nat jobs) = some jobs := Json.nat?_nat h.jobs
  have hfields : (toJson ⟨timeout, jobs, policy, scratchDir⟩).fields?
      ["timeout_ms", "jobs", "wrong_merge", "scratch_dir"] = some [some (.nat timeout),
        some (.nat jobs), some policy.toJson, scratchDir.map Json.text] := by
    cases scratchDir with
    | none =>
      exact Json.fields?_of_nodup ["timeout_ms", "jobs", "wrong_merge"] rfl (by decide) _
    | some dir =>
      exact Json.fields?_of_nodup ["timeout_ms", "jobs", "wrong_merge", "scratch_dir"] rfl
        (by decide) _
  rw [ofJson?, hfields]
  simp only [Option.bind_eq_bind, Option.bind_some, Json.withDefault?, htimeout, hjobs,
    Policy.ofJson?_toJson]
  cases scratchDir <;> rfl

end PassSettings

theorem LogSettings.ofJson?_toJson (s : LogSettings) : ofJson? s.toJson = some s := by
  have hfields : s.toJson.fields? ["dir", "filter"] =
      some [some (Json.nullable Json.text s.dir), some (.text s.filter)] :=
    Json.fields?_of_nodup ["dir", "filter"] rfl (by decide) _
  rw [ofJson?, hfields]
  simp only [Option.bind_eq_bind, Option.bind_some, Json.withDefault?, Json.nullable?_text]
  rfl

namespace Settings
structure InRange (s : Settings) : Prop where
  pass : s.pass.InRange
  tools : ∀ spec ∈ s.tools, spec.InRange

theorem ofJson?_toJson {s : Settings} (h : s.InRange) : ofJson? s.toJson = some s := by
  have htools : Json.list? ToolSpec.ofJson? (.array (s.tools.map ToolSpec.toJson)) = some s.tools :=
    Json.list?_array fun spec hspec => ToolSpec.ofJson?_toJson (h.tools spec hspec)
  have hfields : s.toJson.fields? ["harness", "logging", "strategies"] =
      some [some s.pass.toJson, some s.log.toJson, some (.array (s.tools.map ToolSpec.toJson))] :=
    Json.fields?_of_nodup ["harness", "logging", "strategies"] rfl (by decide) _
  rw [ofJson?, hfields]
  simp only [Option.bind_eq_bind, Option.bind_some, Json.withDefault?,
    PassSettings.ofJson?_toJson h.pass, LogSettings.ofJson?_toJson, htools]
  rfl

theorem read?_write {s : Settings} (h : s.InRange) : read? s.write = some s := by
  rw [read?, write, Json.read?_pretty, Option.bind_some, ofJson?_toJson h]

theorem inRange_default : Settings.default.InRange where
  pass := ⟨by decide, by decide⟩
  tools := by
    intro spec hspec
    have hexits : ∀ spec ∈ ToolSpec.defaults, ∀ range ∈ spec.conflictExits,
        ∀ code ∈ [range.1, range.2],
          Int32.minValue.toInt ≤ code ∧ code ≤ Int32.maxValue.toInt := by decide
    have hbuild : ∀ spec ∈ ToolSpec.defaults, spec.buildTimeout ≤ wordMax := by decide
    exact ⟨hexits spec hspec, hbuild spec hspec⟩

end Settings
end MergeTrial
