import MergeTrial.Proofs.Pass.Determinacy

/-! Which invocations have begun: those of the cells that the sweep took up, but for the tasks that
still wait to begin. -/

namespace MergeTrial.Pass

namespace Task

def isReady (task : Task) : Bool :=
  match task.phase with
  | .ready => true
  | .running _ | .ended _ => false

def waiting (tasks : List Task) : List Nat := (tasks.filter isReady).map cell

variable {task : Task} {tasks rest : List Task}

theorem isReady_iff : task.isReady = true ↔ task.phase = .ready := by
  unfold isReady
  split <;> simp_all

theorem holdsPermit_of_isReady (h : task.isReady = true) : task.holdsPermit = true := by
  rw [holdsPermit, isReady_iff.1 h]

theorem length_waiting_le (tasks : List Task) :
    (waiting tasks).length ≤ tasks.countP holdsPermit := by
  rw [waiting, List.length_map, ← List.countP_eq_length_filter]
  exact List.countP_mono_left fun _ _ => holdsPermit_of_isReady

theorem waiting_of_ready (hperm : tasks.Perm (task :: rest)) (h : task.phase = .ready) :
    (waiting tasks).Perm (task.cell :: waiting rest) := by
  have hperm := (hperm.filter isReady).map cell
  rwa [List.filter_cons_of_pos (isReady_iff.2 h), List.map_cons] at hperm

theorem waiting_of_not_ready (hperm : tasks.Perm (task :: rest)) (h : task.phase ≠ .ready) :
    (waiting tasks).Perm (waiting rest) := by
  have hperm := (hperm.filter isReady).map cell
  rwa [List.filter_cons_of_neg (mt isReady_iff.1 h)] at hperm

theorem waiting_append_of_not_ready (h : task.phase ≠ .ready) :
    waiting (rest ++ [task]) = waiting rest := by
  rw [waiting, List.filter_append, List.filter_cons_of_neg (mt isReady_iff.1 h), List.filter_nil,
    List.append_nil, waiting]

end Task

@[simp] theorem Progress.spawned_join (p : Progress) (cell : Nat) (run : Option Run) :
    (p.join cell run).spawned = p.spawned := by cases run <;> rfl

namespace Trial

def hasBegun (t : Trial) (s : State) (row : Nat) : Bool :=
  (List.range t.entrants.length).any fun column =>
    s.calls.contains (row * t.entrants.length + column)

variable {t : Trial} {s s' : State}

theorem hasBegun_iff {row : Nat} : t.hasBegun s row = true ↔
    ∃ column < t.entrants.length, row * t.entrants.length + column ∈ s.calls := by
  simp only [hasBegun, List.any_eq_true, List.mem_range, List.contains_iff_mem]

theorem Move.calls_perm {event : Event} (hmove : t.Move s event s')
    (h : (s.calls ++ Task.waiting s.tasks).Perm s.progress.spawned) :
    (s'.calls ++ Task.waiting s'.tasks).Perm s'.progress.spawned := by
  cases hmove with
  | spawns row column scenario entrant hsweep hscenario hentrant hthere hpermit =>
    rw [Task.waiting, List.filter_append, List.map_append, ← List.append_assoc]
    exact h.append_right _
  | starts task rest hperm hready =>
    rw [Task.waiting_append_of_not_ready (by nofun), List.append_assoc]
    exact ((Task.waiting_of_ready hperm hready).symm.append_left _).trans h
  | finishes task rest since hperm hrunning hdue =>
    rw [Task.waiting_append_of_not_ready (by nofun)]
    have hwaiting := Task.waiting_of_not_ready hperm (ne_of_eq_of_ne hrunning nofun)
    exact (hwaiting.symm.append_left _).trans h
  | joins task rest run hover hperm hended =>
    rw [Progress.spawned_join]
    have hwaiting := Task.waiting_of_not_ready hperm (ne_of_eq_of_ne hended nofun)
    exact (hwaiting.symm.append_left _).trans h
  | sweepEnds | stops | passes | rowEnds | skips | waits | sends | closes => exact h

theorem calls_perm_of_leads {channel : Option Channel} {schedule : List Event}
    (h : t.Leads channel schedule s) :
    (s.calls ++ Task.waiting s.tasks).Perm ((List.range (t.reached s)).filter t.isPresent) := by
  rw [← (invariant_of_leads h).collects.spawned]
  obtain ⟨first, hbegin, hrun⟩ := h
  obtain ⟨-, rfl⟩ := begin_eq_ok hbegin
  exact execute_induction (fun _ _ _ _ hmove => hmove.calls_perm) hrun (List.Perm.refl _)

theorem Invariant.reached_bounds (h : t.Invariant s) :
    (s.progress.evaluated - 1) * t.entrants.length ≤ t.reached s ∧
      t.reached s ≤ s.progress.evaluated * t.entrants.length := by
  have hplaced := h.placed
  unfold Placed at hplaced
  unfold reached
  cases hsweep : s.sweep with
  | checkpoint row =>
    simp only [hsweep] at hplaced
    rw [hplaced.1]
    exact ⟨Nat.mul_le_mul_right _ (Nat.sub_le row 1), Nat.le_refl _⟩
  | cell row column =>
    simp only [hsweep] at hplaced
    rw [hplaced.1, Nat.add_sub_cancel, Nat.succ_mul]
    exact ⟨Nat.le_add_right .., Nat.add_le_add_left hplaced.2.2.1 _⟩
  | complete => exact ⟨Nat.mul_le_mul_right _ (Nat.sub_le ..), Nat.le_refl _⟩

theorem calls_perm_of_isComplete {channel : Option Channel} {schedule : List Event}
    (h : t.Leads channel schedule s) (hcomplete : s.isComplete = true) :
    s.calls.Perm
      ((List.range (s.progress.evaluated * t.entrants.length)).filter t.isPresent) := by
  simp only [State.isComplete, Bool.and_eq_true, beq_iff_eq, List.isEmpty_iff] at hcomplete
  have hperm := calls_perm_of_leads h
  rwa [hcomplete.2, reached, hcomplete.1, Task.waiting, List.filter_nil, List.map_nil,
    List.append_nil] at hperm

end Trial
end MergeTrial.Pass
