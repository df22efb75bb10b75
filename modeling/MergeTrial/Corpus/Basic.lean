import MergeTrial.Scenario
import MergeTrial.NameMap
import MergeTrial.Fault

/-! The validated scenarios of one evaluation, in ascending order of their names. -/

namespace MergeTrial

structure Corpus where
  byName : NameMap Scenario
  named : ∀ entry ∈ byName.toList, entry.2.name = entry.1

namespace Corpus

def empty : Corpus := ⟨∅, fun _ h => absurd h List.not_mem_nil⟩

instance : Inhabited Corpus := ⟨empty⟩

def ofScenarios (scenarios : List Scenario) : Outcome Corpus :=
  match NameSet.firstRepeat (scenarios.map (·.name)) with
  | some name => .error (.repeatedScenario name)
  | none => .ok {
      byName := .ofList (scenarios.map fun s => (s.name, s))
      named := fun entry h => by
        obtain ⟨s, -, rfl⟩ := List.mem_map.1 (NameMap.mem_ofList h)
        rfl }

def scenarios (c : Corpus) : List Scenario := c.byName.toList.map Prod.snd

def names (c : Corpus) : List String := c.scenarios.map (·.name)

def get? (c : Corpus) (name : String) : Option Scenario := c.byName.get? name

def size (c : Corpus) : Nat := c.scenarios.length

def isEmpty (c : Corpus) : Bool := c.scenarios.isEmpty

theorem names_eq_keys (c : Corpus) : c.names = c.byName.keys := by
  simp only [names, scenarios, NameMap.keys, List.map_map]
  exact List.map_congr_left fun entry h => c.named entry h

theorem names_ascending (c : Corpus) : c.names.Pairwise (· < ·) := by
  rw [names_eq_keys]
  exact c.byName.ascending

theorem nodup_names (c : Corpus) : c.names.Nodup :=
  c.names_ascending.imp String.ne_of_lt

end Corpus
end MergeTrial
