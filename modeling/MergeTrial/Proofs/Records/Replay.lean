import MergeTrial.Records.Replay
import MergeTrial.Proofs.Pass.Plan

/-! What a replay of recorded results classifies: every strategy of the file on every scenario of
it, each pair once. -/

namespace MergeTrial

namespace Record

theorem label_eq_ok_iff {record : Record} {scenario : String} {label : Label} :
    record.label scenario = .ok label ↔ record.expected = some label.name := by
  rw [Record.label]
  cases record.expected with
  | none => exact ⟨nofun, nofun⟩
  | some text =>
    simp only [Option.some_inj, ← Label.ofName?_eq_some_iff]
    cases Label.ofName? text <;> simp

theorem map_classify {policy : Policy} {strategies : List String} {scenario : String}
    {record : Record} {cs : List Classification}
    (h : record.classify policy strategies scenario = .ok cs) :
    cs.map (fun c => (c.scenario, c.strategy)) =
      strategies.map fun strategy => (scenario, strategy) := by
  obtain ⟨label, -, h⟩ := Outcome.bind_eq_ok.1 h
  refine Outcome.map_of_mapM_eq_ok h fun strategy _ c hc => ?_
  obtain ⟨⟨status, comparison⟩, -, hc⟩ := Outcome.bind_eq_ok.1 hc
  exact Except.ok.inj hc ▸ rfl

end Record

namespace RecordFile

theorem map_classify {policy : Policy} {file : RecordFile} {cs : List Classification}
    (h : file.classify policy = .ok cs) :
    cs.map (fun c => (c.scenario, c.strategy)) =
      Pass.plan (NameMap.keys file) (strategies file).toList := by
  obtain ⟨rows, hrows, h⟩ := Outcome.bind_eq_ok.1 h
  obtain rfl := Except.ok.inj h
  have hpairs : rows.map (·.map fun c => (c.scenario, c.strategy)) =
      file.toList.map fun entry =>
        (strategies file).toList.map fun strategy => (entry.1, strategy) :=
    Outcome.map_of_mapM_eq_ok hrows fun entry _ row hrow => Record.map_classify hrow
  rw [List.map_flatten, hpairs, Pass.plan, NameMap.keys, List.flatMap_map, List.flatMap_def]

theorem nodup_classify {policy : Policy} {file : RecordFile} {cs : List Classification}
    (h : file.classify policy = .ok cs) :
    (cs.map fun c => (c.scenario, c.strategy)).Nodup := by
  rw [map_classify h]
  exact Pass.nodup_plan (NameMap.nodup_keys file) (strategies file).nodup_toList

end RecordFile
end MergeTrial
