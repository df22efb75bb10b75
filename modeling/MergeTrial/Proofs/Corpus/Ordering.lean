import MergeTrial.Pass.Evaluation
import MergeTrial.Proofs.Corpus.Loading

/-! Corpora made of scenarios at hand: which lists make one, which name is refused otherwise, and
that a corpus is the one permutation of its scenarios with ascending names. -/

namespace MergeTrial.Corpus
variable {scenarios others : List Scenario} {c c' : Corpus}

theorem ofScenarios_eq_error_iff {fault : Fault} : ofScenarios scenarios = .error fault ↔
    ∃ before s after, scenarios = before ++ s :: after ∧ (before.map (·.name)).Nodup ∧
      s.name ∈ before.map (·.name) ∧ fault = .repeatedScenario s.name := by
  have hrepeat : ofScenarios scenarios = .error fault ↔ ∃ name,
      NameSet.firstRepeat (scenarios.map (·.name)) = some name ∧
        fault = .repeatedScenario name := by
    rw [ofScenarios]
    cases NameSet.firstRepeat (scenarios.map (·.name)) with
    | none => simp
    | some name => simp [eq_comm]
  rw [hrepeat]
  simp only [NameSet.firstRepeat_eq_some_iff]
  constructor
  · rintro ⟨name, ⟨before, after, hsplit, hnodup, hmem⟩, rfl⟩
    obtain ⟨xs, rest, rfl, rfl, hrest⟩ := List.map_eq_append_iff.1 hsplit
    obtain ⟨s, ys, rfl, rfl, rfl⟩ := List.map_eq_cons_iff.1 hrest
    exact ⟨xs, s, ys, rfl, hnodup, hmem, rfl⟩
  · rintro ⟨before, s, after, rfl, hnodup, hmem, rfl⟩
    refine ⟨s.name, ⟨before.map (·.name), after.map (·.name), ?_, hnodup, hmem⟩, rfl⟩
    rw [List.map_append, List.map_cons]

theorem perm_of_ofScenarios (h : ofScenarios scenarios = .ok c) : c.scenarios.Perm scenarios := by
  have hnames : (scenarios.map (·.name)).Nodup := (ofScenarios_eq_ok_iff.1 h).1
  have hdistinct : c.scenarios.Nodup := List.Nodup.of_map _ c.nodup_names
  exact (List.perm_ext_iff_of_nodup hdistinct (List.Nodup.of_map _ hnames)).2 fun _ =>
    mem_scenarios_iff h

theorem get?_ofScenarios (h : ofScenarios scenarios = .ok c) {name : String} {s : Scenario} :
    c.get? name = some s ↔ s ∈ scenarios ∧ s.name = name := by
  rw [get?, mem_scenarios_iff_get?, mem_scenarios_iff h]

theorem eq_of_get? (h : ∀ name, c.get? name = c'.get? name) : c = c' := by
  have hmaps : c.byName = c'.byName := NameMap.ext h
  cases c
  cases c'
  cases hmaps
  rfl

theorem ofScenarios_perm (h : ofScenarios scenarios = .ok c) (hperm : others.Perm scenarios) :
    ofScenarios others = .ok c := by
  have hnames : (others.map (·.name)).Nodup :=
    (hperm.map _).nodup_iff.2 (ofScenarios_eq_ok_iff.1 h).1
  obtain ⟨c', hc'⟩ := exists_ofScenarios hnames
  have hsame : c' = c := eq_of_get? fun name => Option.ext fun s => by
    rw [get?_ofScenarios hc', get?_ofScenarios h, hperm.mem_iff]
  rw [hc', hsame]

theorem ascending_bytes (c : Corpus) :
    c.scenarios.Pairwise fun a b => Bytes.ofString a.name < Bytes.ofString b.name := by
  have hnames := List.pairwise_map.1 c.names_ascending
  exact hnames.imp Bytes.ofString_lt_iff.2

def byteOrder (a b : String) : Bool := decide (Bytes.ofString a ≤ Bytes.ofString b)

theorem names_eq_mergeSort (h : ofScenarios scenarios = .ok c) :
    c.names = (scenarios.map (·.name)).mergeSort byteOrder := by
  have hsort := List.mergeSort_perm (scenarios.map (·.name)) byteOrder
  have hperm := ((perm_of_ofScenarios h).map (·.name)).trans hsort.symm
  have hascending : c.names.Pairwise fun a b => Bytes.ofString a ≤ Bytes.ofString b :=
    c.names_ascending.imp fun hlt => List.le_of_lt (Bytes.ofString_lt_iff.2 hlt)
  have hsorted := Bytes.pairwise_mergeSort Bytes.ofString (scenarios.map (·.name))
  refine hperm.eq_of_pairwise (fun a b _ _ hab hba => ?_) hascending hsorted
  exact Bytes.ofString_inj.1 (List.le_antisymm hab hba)

/-- A corpus is made exactly of scenarios with different names; otherwise the first scenario named
like an earlier one is refused. It lists the scenarios in ascending order of the bytes of their
names and finds each by its name, in whatever order they were given. -/
theorem ofScenarios_sorts (scenarios : List Scenario) :
    ((∃ c, ofScenarios scenarios = .ok c) ↔ (scenarios.map (·.name)).Nodup) ∧
    (∀ fault, ofScenarios scenarios = .error fault ↔ ∃ before s after,
      scenarios = before ++ s :: after ∧ (before.map (·.name)).Nodup ∧
      s.name ∈ before.map (·.name) ∧ fault = .repeatedScenario s.name) ∧
    ∀ c, ofScenarios scenarios = .ok c →
      c.scenarios.Perm scenarios ∧
      c.scenarios.Pairwise (fun a b => Bytes.ofString a.name < Bytes.ofString b.name) ∧
      (∀ name s, c.get? name = some s ↔ s ∈ scenarios ∧ s.name = name) ∧
      ∀ others, others.Perm scenarios → ofScenarios others = .ok c ∧
        ∀ strategies, Pass.plan c.names strategies =
          ((others.map (·.name)).mergeSort byteOrder).flatMap fun name =>
            strategies.map fun strategy => (name, strategy) := by
  refine ⟨?_, fun fault => ofScenarios_eq_error_iff, fun c hc => ?_⟩
  · constructor
    · rintro ⟨c, hc⟩
      exact (ofScenarios_eq_ok_iff.1 hc).1
    · exact exists_ofScenarios
  · refine ⟨perm_of_ofScenarios hc, c.ascending_bytes, fun name s => get?_ofScenarios hc, ?_⟩
    intro others hperm
    have hothers : ofScenarios others = .ok c := ofScenarios_perm hc hperm
    refine ⟨hothers, fun strategies => ?_⟩
    rw [← names_eq_mergeSort hothers]
    rfl

def threeNames : List Scenario :=
  ["😀", "Z", "ｚ"].map fun name => ⟨name, .conflict, "", "", "", none, none⟩

theorem threeNames_ofScenarios_sorts : ∃ c, ofScenarios threeNames = .ok c ∧
    ofScenarios threeNames.reverse = .ok c ∧
    Pass.plan c.names ["B", "A"] = [("Z", "B"), ("Z", "A"), ("ｚ", "B"), ("ｚ", "A"),
      ("😀", "B"), ("😀", "A")] := by
  obtain ⟨hok, -, hsorts⟩ := ofScenarios_sorts threeNames
  obtain ⟨c, hc⟩ := hok.2 (by decide)
  obtain ⟨-, -, -, hothers⟩ := hsorts c hc
  obtain ⟨hreverse, -⟩ := hothers threeNames.reverse (List.reverse_perm threeNames)
  have hrotated : (threeNames.drop 1 ++ threeNames.take 1).Perm threeNames :=
    List.perm_append_comm.trans (.of_eq (List.take_append_drop 1 threeNames))
  obtain ⟨-, hplan⟩ := hothers _ hrotated
  have hsorted : ["Z", "ｚ", "😀"].mergeSort byteOrder = ["Z", "ｚ", "😀"] :=
    List.mergeSort_of_pairwise (by decide)
  refine ⟨c, hc, hreverse, (hplan ["B", "A"]).trans ?_⟩
  rw [show (threeNames.drop 1 ++ threeNames.take 1).map (·.name) = ["Z", "ｚ", "😀"] from rfl,
    hsorted]
  rfl

end MergeTrial.Corpus
