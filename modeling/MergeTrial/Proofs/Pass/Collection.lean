import MergeTrial.Proofs.Pass.Plan

/-! What a pass has collected when its sweep has got past the first cells. Every such cell is in
exactly one of three places: among the finished runs, still under way, or lost because its
invocation broke down. -/

namespace MergeTrial.Pass
namespace Trial

def yield (t : Trial) (scenario : Scenario) (entrant : Entrant Id) : Option Run :=
  if entrant.available then
    (invoke t.settings.timeout (entrant.call scenario)).map (.ofOutput scenario entrant.name)
  else some (.unavailable scenario entrant.name)

def runOf (t : Trial) (scenario : Scenario) (entrant : Entrant Id) : Run :=
  if entrant.available then
    .ofOutput scenario entrant.name (settle t.settings.timeout (entrant.call scenario))
  else .unavailable scenario entrant.name

def isPresent (t : Trial) (cell : Nat) : Bool := (t.pair? cell).any (·.2.available)

theorem yield_eq_some {t : Trial} {scenario : Scenario} {entrant : Entrant Id} {run : Run}
    (h : t.yield scenario entrant = some run) : run = t.runOf scenario entrant := by
  unfold yield at h
  unfold runOf settle
  split at h
  · next hthere =>
    obtain ⟨output, houtput, rfl⟩ := Option.map_eq_some_iff.1 h
    rw [if_pos hthere, houtput, Option.getD_some]
  · next hgone =>
    rw [if_neg hgone]
    exact (Option.some.inj h).symm

theorem yield_eq_none {t : Trial} {scenario : Scenario} {entrant : Entrant Id}
    (h : t.yield scenario entrant = none) :
    entrant.available = true ∧
      t.runOf scenario entrant = .ofOutput scenario entrant.name aborted := by
  unfold yield at h
  unfold runOf settle
  split at h
  · next hthere =>
    rw [if_pos hthere, Option.map_eq_none_iff.1 h, Option.getD_none]
    exact ⟨hthere, rfl⟩
  · exact absurd h (Option.some_ne_none _)

theorem isPresent_eq {t : Trial} {cell : Nat} {scenario : Scenario} {entrant : Entrant Id}
    (h : t.pair? cell = some (scenario, entrant)) : t.isPresent cell = entrant.available := by
  simp [isPresent, h]

end Trial

/-- The progress of a pass whose sweep is past the first `reached` cells while the invocations of
the cells in `underWay` have not been joined. -/
structure Progress.Collects (t : Trial) (reached : Nat) (underWay : List Nat) (p : Progress) :
    Prop where
  finished : ∀ entry ∈ p.finished, ∃ scenario entrant,
    t.pair? entry.1 = some (scenario, entrant) ∧ t.yield scenario entrant = some entry.2
  spawned : p.spawned = (List.range reached).filter t.isPresent
  -- no cell is missing and none is there twice; the lost ones broke down
  cells : ∃ lost : List Nat, (∀ cell ∈ lost, ∃ scenario entrant,
      t.pair? cell = some (scenario, entrant) ∧ t.yield scenario entrant = none) ∧
    (p.finished.map Prod.fst ++ (underWay ++ lost)).Perm (List.range reached)

namespace Progress.Collects
variable {t : Trial} {reached cell : Nat} {underWay : List Nat} {p : Progress}
  {scenario : Scenario} {entrant : Entrant Id}

theorem empty (t : Trial) : Progress.empty.Collects t 0 [] where
  finished := fun _ h => absurd h List.not_mem_nil
  spawned := rfl
  cells := ⟨[], fun _ h => absurd h List.not_mem_nil, List.Perm.refl _⟩

theorem of_eq {q : Progress} (h : p.Collects t reached underWay)
    (hfinished : q.finished = p.finished) (hspawned : q.spawned = p.spawned) :
    q.Collects t reached underWay where
  finished := hfinished ▸ h.finished
  spawned := hspawned ▸ h.spawned
  cells := hfinished ▸ h.cells

theorem perm (h : p.Collects t reached underWay) {others : List Nat}
    (hperm : others.Perm underWay) :
    p.Collects t reached others where
  finished := h.finished
  spawned := h.spawned
  cells := by
    obtain ⟨lost, hlost, hcells⟩ := h.cells
    exact ⟨lost, hlost, ((hperm.append_right lost).append_left _).trans hcells⟩

theorem skip (h : p.Collects t reached underWay) (hpair : t.pair? reached = some (scenario, entrant))
    (hgone : entrant.available = false) :
    (p.finish reached (.unavailable scenario entrant.name)).Collects t (reached + 1) underWay where
  finished := by
    intro entry hentry
    rcases List.mem_append.1 hentry with hentry | hentry
    · exact h.finished entry hentry
    · obtain rfl := List.mem_singleton.1 hentry
      exact ⟨scenario, entrant, hpair, by simp [Trial.yield, hgone]⟩
  spawned := by
    have hpresent : t.isPresent reached = false := (Trial.isPresent_eq hpair).trans hgone
    simp [finish, h.spawned, List.range_succ, List.filter_append, hpresent]
  cells := by
    obtain ⟨lost, hlost, hcells⟩ := h.cells
    refine ⟨lost, hlost, ?_⟩
    rw [finish, List.map_append, List.append_assoc, List.range_succ]
    exact (List.perm_append_comm.append_left _).trans
      ((List.append_assoc .. ▸ hcells.append_right [reached]))

theorem spawn (h : p.Collects t reached underWay)
    (hpair : t.pair? reached = some (scenario, entrant)) (hthere : entrant.available = true) :
    (p.spawn reached).Collects t (reached + 1) (underWay ++ [reached]) where
  finished := h.finished
  spawned := by
    have hpresent : t.isPresent reached = true := (Trial.isPresent_eq hpair).trans hthere
    simp [Progress.spawn, h.spawned, List.range_succ, List.filter_append, hpresent]
  cells := by
    obtain ⟨lost, hlost, hcells⟩ := h.cells
    refine ⟨lost, hlost, ?_⟩
    have hmove : (underWay ++ [reached] ++ lost).Perm (underWay ++ lost ++ [reached]) := by
      rw [List.append_assoc, List.append_assoc]
      exact List.perm_append_comm.append_left underWay
    rw [List.range_succ]
    refine (hmove.append_left _).trans ?_
    rw [← List.append_assoc]
    exact hcells.append_right [reached]

theorem join (h : p.Collects t reached (cell :: underWay))
    (hpair : t.pair? cell = some (scenario, entrant)) :
    (p.join cell (t.yield scenario entrant)).Collects t reached underWay := by
  obtain ⟨lost, hlost, hcells⟩ := h.cells
  cases hyield : t.yield scenario entrant with
  | none =>
    refine ⟨h.finished, h.spawned, cell :: lost, fun other hother => ?_, ?_⟩
    · rcases List.mem_cons.1 hother with rfl | hother
      · exact ⟨scenario, entrant, hpair, hyield⟩
      · exact hlost other hother
    · exact (List.perm_middle.append_left _).trans hcells
  | some run =>
    refine ⟨fun entry hentry => ?_, h.spawned, lost, hlost, ?_⟩
    · rcases List.mem_append.1 hentry with hentry | hentry
      · exact h.finished entry hentry
      · obtain rfl := List.mem_singleton.1 hentry
        exact ⟨scenario, entrant, hpair, hyield⟩
    · simpa [Progress.join, finish] using hcells

end Progress.Collects
end MergeTrial.Pass
