import MergeTrial.Proofs.Metrics.Accounting

/-! The scenarios that a matrix names, against its counts: they agree exactly if no scenario was
recorded twice with the same verdict. -/

namespace MergeTrial

theorem nodup_map_pair_iff {α β κ : Type} [DecidableEq κ] {f : α → β} {key : α → κ} {xs : List α} :
    (xs.map fun x => (f x, key x)).Nodup ↔
      ∀ k, ((xs.filter fun x => key x = k).map f).Nodup := by
  simp only [List.Nodup, List.pairwise_map, List.pairwise_filter, decide_eq_true_eq, ne_eq,
    Prod.mk.injEq, not_and]
  constructor
  · exact fun h k => h.imp fun hne ha hb heq => hne heq (ha.trans hb.symm)
  · intro h
    refine List.pairwise_iff_getElem.2 fun i j hi hj hlt heq hkey => ?_
    exact List.pairwise_iff_getElem.1 (h (key xs[i])) i j hi hj hlt rfl hkey.symm heq

namespace NameSet

theorem size_ofList_eq_card (names : List String) : (ofList names).size = names.toFinset.card := by
  rw [← card_toFinset]
  refine congrArg Finset.card (Finset.ext fun x => ?_)
  rw [List.mem_toFinset, List.mem_toFinset, mem_toList, mem_ofList]

theorem size_ofList_le (names : List String) : (ofList names).size ≤ names.length :=
  (size_ofList_eq_card names).trans_le names.toFinset_card_le

theorem size_ofList_eq_iff {names : List String} :
    (ofList names).size = names.length ↔ names.Nodup := by
  rw [size_ofList_eq_card]
  exact Multiset.toFinset_card_eq_card_iff_nodup (m := (names : Multiset String))

theorem getD_ofList? (names : List String) : (ofList? names).getD ∅ = ofList names := by
  cases names <;> rfl

theorem isSome_ofList?_iff {names : List String} :
    (ofList? names).isSome = true ↔ 0 < names.length := by
  cases names <;> simp [ofList?]

end NameSet

namespace Confusion
variable (cs : List Classification) (v : Verdict)

theorem scenarios_ofList : (ofList cs).scenarios v =
    NameSet.ofList ((cs.filter fun c => c.verdict = v).map (·.scenario)) := by
  rw [scenarios, names_ofList, NameSet.getD_ofList?]

theorem isSome_names_ofList_iff :
    ((ofList cs).names.get v).isSome = true ↔ 0 < (ofList cs).count v := by
  rw [names_ofList, NameSet.isSome_ofList?_iff, List.length_map, count_ofList]

theorem size_scenarios_le_count : ((ofList cs).scenarios v).size ≤ (ofList cs).count v := by
  rw [scenarios_ofList, count_ofList, ← List.length_map (·.scenario)]
  exact NameSet.size_ofList_le _

theorem size_scenarios_eq_count_iff : ((ofList cs).scenarios v).size = (ofList cs).count v ↔
    ((cs.filter fun c => c.verdict = v).map (·.scenario)).Nodup := by
  rw [scenarios_ofList, count_ofList, ← List.length_map (·.scenario)]
  exact NameSet.size_ofList_eq_iff

/-- What a matrix holds after any records, also of verdicts that no policy gives. Its counts are the
sizes of its buckets only as long as nothing is recorded again. -/
theorem foldl_record_tallies (cs : List Classification) :
    let m := cs.foldl record empty
    m.total = cs.length ∧
    (∀ v, m.count v = (cs.filter fun c => c.verdict = v).length) ∧
    m.skipped = (cs.filter fun c => c.status = .skipped).length ∧
    (∀ v, (m.scenarios v).toList.Pairwise (· < ·) ∧ ∀ scenario,
      scenario ∈ (m.scenarios v).toList ↔ ∃ c ∈ cs, c.verdict = v ∧ c.scenario = scenario) ∧
    (∀ v, (m.names.get v).isSome = true ↔ 0 < m.count v) ∧
    (∀ v, (m.scenarios v).toList.length ≤ m.count v) ∧
    ((∀ v, (m.scenarios v).toList.length = m.count v) ↔
      (cs.map fun c => (c.scenario, c.verdict)).Nodup) := by
  refine ⟨total_ofList cs, count_ofList cs, skipped_ofList cs, fun v => ⟨?_, fun _ => ?_⟩,
    isSome_names_ofList_iff cs, size_scenarios_le_count cs, ?_⟩
  · exact ((ofList cs).scenarios v).ascending
  · exact mem_scenarios_ofList
  · rw [nodup_map_pair_iff]
    exact forall_congr' (size_scenarios_eq_count_iff cs)

/-- A scenario that is recorded again counts again, and is named once. -/
example : let c : Classification := .make .separate "S" "x" .success .failed .notComparable
    let m := [c, c].foldl record empty
    m.count .error = 2 ∧ (m.scenarios .error).toList = ["S"] := by decide

end Confusion
end MergeTrial
