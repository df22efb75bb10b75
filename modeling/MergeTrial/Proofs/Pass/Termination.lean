import MergeTrial.Proofs.Pass.Invariant

/-! Passes end. Every event of the pass itself uses up some of the work that is left, and as long as
work is left one of them can happen, if need be after waiting for an invocation. -/

namespace MergeTrial.Pass

def Event.isInternal : Event → Bool
  | .advance | .start _ | .finish _ | .join _ => true
  | .wait _ | .send | .close => false

def Event.isForeign : Event → Bool
  | .send | .close => true
  | .advance | .start _ | .finish _ | .join _ | .wait _ => false

namespace Trial
variable {t : Trial} {s s' : State}

def sweepLeft (t : Trial) : Sweep → Nat
  | .checkpoint row => (t.corpus.size - row) * (t.entrants.length + 2) + 1
  | .cell row column =>
    (t.corpus.size - (row + 1)) * (t.entrants.length + 2) + 1 + (t.entrants.length - column) + 1
  | .complete => 0

def taskLeft (task : Task) : Nat :=
  match task.phase with
  | .ready => 3
  | .running _ => 2
  | .ended _ => 1

def tasksLeft (tasks : List Task) : Nat := tasks.foldr (fun task left => taskLeft task + left) 0

/-- The work that is left. A cell that the sweep takes up costs at most four events: its own and
those of the task. -/
def workLeft (t : Trial) (s : State) : Nat := 4 * t.sweepLeft s.sweep + tasksLeft s.tasks

theorem workLeft_begin {channel : Option Channel} (h : t.begin channel = .ok s) :
    t.workLeft s = 4 * (t.corpus.size * (t.entrants.length + 2) + 1) := by
  obtain ⟨-, rfl⟩ := begin_eq_ok h
  rfl

theorem tasksLeft_cons (task : Task) (tasks : List Task) :
    tasksLeft (task :: tasks) = taskLeft task + tasksLeft tasks := rfl

theorem tasksLeft_perm {as bs : List Task} (h : as.Perm bs) : tasksLeft as = tasksLeft bs :=
  h.foldr_eq' (fun a _ b _ left => Nat.add_left_comm (taskLeft b) (taskLeft a) left) 0

theorem tasksLeft_append (task : Task) (tasks : List Task) :
    tasksLeft (tasks ++ [task]) = taskLeft task + tasksLeft tasks :=
  tasksLeft_perm List.perm_append_comm

theorem tasksLeft_replace {task : Task} {tasks rest : List Task}
    (hperm : tasks.Perm (task :: rest)) (phase : Phase) :
    tasksLeft (rest ++ [{ task with phase := phase }]) + taskLeft task =
      tasksLeft tasks + taskLeft { task with phase := phase } := by
  rw [tasksLeft_perm hperm, tasksLeft_append, tasksLeft_cons]
  omega

theorem sweepLeft_checkpoint {row : Nat} (h : row < t.corpus.size) :
    t.sweepLeft (.checkpoint row) = t.sweepLeft (.cell row 0) + 1 := by
  obtain ⟨left, hleft⟩ : ∃ left, t.corpus.size - row = left + 1 :=
    ⟨t.corpus.size - row - 1, by omega⟩
  have hnext : t.corpus.size - (row + 1) = left := by omega
  simp only [sweepLeft, hleft, hnext, Nat.succ_mul]
  omega

theorem Move.workLeft_le {event : Event} (hmove : t.Move s event s') :
    t.workLeft s' + (if event.isInternal then 1 else 0) ≤ t.workLeft s := by
  cases hmove with
  | sweepEnds row hsweep hrow =>
    simp only [workLeft, hsweep, sweepLeft, Event.isInternal, if_true]
    omega
  | stops row channel hsweep hrow hchannel hstops =>
    simp only [workLeft, hsweep, sweepLeft, Event.isInternal, if_true]
    omega
  | passes row hsweep hrow hgoes =>
    have hleft := sweepLeft_checkpoint (t := t) hrow
    simp only [workLeft, hsweep, Event.isInternal, if_true]
    omega
  | rowEnds row column hsweep hend =>
    simp only [workLeft, hsweep, sweepLeft, Event.isInternal, if_true]
    omega
  | skips row column scenario entrant hsweep hscenario hentrant hgone =>
    have hcolumn := (List.getElem?_eq_some_iff.1 hentrant).1
    simp only [workLeft, hsweep, sweepLeft, Event.isInternal, if_true]
    omega
  | spawns row column scenario entrant hsweep hscenario hentrant hthere hpermit =>
    have hcolumn := (List.getElem?_eq_some_iff.1 hentrant).1
    simp only [workLeft, hsweep, sweepLeft, Event.isInternal, if_true, tasksLeft_append, taskLeft]
    omega
  | starts task rest hperm hready =>
    have hsum := tasksLeft_replace hperm (.running s.clock)
    have hbefore : taskLeft task = 3 := by rw [taskLeft, hready]
    have hafter : taskLeft { task with phase := .running s.clock } = 2 := rfl
    simp only [workLeft, Event.isInternal, if_true]
    omega
  | finishes task rest since hperm hrunning hdue =>
    have hsum := tasksLeft_replace hperm (.ended (task.run t.settings.timeout))
    have hbefore : taskLeft task = 2 := by rw [taskLeft, hrunning]
    have hafter : taskLeft { task with phase := .ended (task.run t.settings.timeout) } = 1 := rfl
    simp only [workLeft, Event.isInternal, if_true]
    omega
  | joins task rest run hover hperm hended =>
    have hsum := tasksLeft_perm hperm
    rw [tasksLeft_cons] at hsum
    simp only [workLeft, Event.isInternal, if_true]
    have htask : taskLeft task = 1 := by rw [taskLeft, hended]
    omega
  | waits time => exact Nat.le_refl _
  | sends channel hchannel => exact Nat.le_refl _
  | closes => exact Nat.le_refl _

theorem workLeft_execute {schedule : List Event} (h : t.execute s schedule = some s') :
    schedule.countP Event.isInternal + t.workLeft s' ≤ t.workLeft s := by
  induction schedule generalizing s with
  | nil =>
    obtain rfl := Option.some.inj h
    exact Nat.le_of_eq (Nat.zero_add _)
  | cons event rest ih =>
    obtain ⟨next, hnext, hrest⟩ := Option.bind_eq_some_iff.1 h
    have hstep := (move_of_step hnext).workLeft_le
    have hrest := ih hrest
    rw [List.countP_cons]
    omega

theorem take?_of_mem {task : Task} {tasks : List Task} (hnodup : (tasks.map Task.cell).Nodup)
    (hmem : task ∈ tasks) : ∃ rest, Task.take? task.cell tasks = some (task, rest) := by
  induction tasks with
  | nil => exact absurd hmem List.not_mem_nil
  | cons first others ih =>
    rw [List.map_cons, List.nodup_cons] at hnodup
    by_cases hcell : first.cell = task.cell
    · rcases List.mem_cons.1 hmem with rfl | hmem
      · exact ⟨others, by rw [Task.take?, if_pos rfl]⟩
      · exact absurd (List.mem_map.2 ⟨task, hmem, hcell.symm⟩) hnodup.1
    · have hmem := (List.mem_cons.1 hmem).resolve_left fun h => hcell (congrArg Task.cell h).symm
      obtain ⟨rest, hrest⟩ := ih hnodup.2 hmem
      exact ⟨first :: rest, by rw [Task.take?, if_neg hcell, hrest]; rfl⟩

theorem Invariant.nodup_cells (h : t.Invariant s) : (s.tasks.map Task.cell).Nodup := by
  obtain ⟨lost, -, hperm⟩ := h.collects.cells
  have hnodup := hperm.nodup_iff.2 List.nodup_range
  exact (List.nodup_append.1 (List.nodup_append.1 hnodup).2.1).1

/-- The pass can take one of its own steps, if need be after waiting. -/
def GoesOn (t : Trial) (s : State) : Prop :=
  ∃ schedule s', t.execute s schedule = some s' ∧ schedule.countP Event.isInternal = 1 ∧
    schedule.all (!·.isForeign) = true

theorem goesOn_of_step {event : Event} (hevent : event.isInternal = true)
    (h : (t.step s event).isSome = true) : t.GoesOn s := by
  obtain ⟨next, hnext⟩ := Option.isSome_iff_exists.1 h
  refine ⟨[event], next, ?_, ?_, ?_⟩
  · rw [execute_cons, hnext]
    rfl
  · rw [List.countP_singleton, if_pos hevent]
  · cases event <;> first | rfl | exact nomatch hevent

theorem goesOn_of_wait {time : Nat} (h : t.GoesOn { s with clock := s.clock + time }) :
    t.GoesOn s := by
  obtain ⟨schedule, last, hrun, hcount, hquiet⟩ := h
  exact ⟨.wait time :: schedule, last, hrun, hcount, hquiet⟩

theorem Invariant.goesOn_of_task (h : t.Invariant s) {task : Task} (hmem : task ∈ s.tasks)
    (hphase : task.holdsPermit = true ∨ s.sweep = .complete) : t.GoesOn s := by
  obtain ⟨rest, hrest⟩ := take?_of_mem h.nodup_cells hmem
  obtain ⟨cell, scenario, entrant, phase⟩ := task
  simp only at hrest
  cases phase with
  | ready =>
    have hstart : (t.step s (.start cell)).isSome = true := by
      rw [step, start, hrest]
      rfl
    exact goesOn_of_step rfl hstart
  | running since =>
    obtain ⟨time, htime⟩ : ∃ time, since + Task.duration t.settings.timeout
        ⟨cell, scenario, entrant, .running since⟩ ≤ s.clock + time := ⟨_, Nat.le_add_left ..⟩
    have hfinish : (t.step { s with clock := s.clock + time } (.finish cell)).isSome = true := by
      rw [step, finish, hrest]
      simp only [if_pos htime]
      rfl
    exact goesOn_of_wait (goesOn_of_step rfl hfinish)
  | ended run =>
    have hover : s.sweep = .complete := hphase.resolve_left Bool.false_ne_true
    have hjoin : (t.step s (.join cell)).isSome = true := by
      rw [step, join, hover, hrest]
      rfl
    exact goesOn_of_step rfl hjoin

theorem permits_of_enter_eq_none {row column : Nat} (h : t.enter s row column = none) :
    s.permits = 0 := by
  unfold enter at h
  simp only at h
  split at h
  · split at h
    · exact absurd h (Option.some_ne_none _)
    · split at h
      · assumption
      · exact absurd h (Option.some_ne_none _)
  · exact absurd h (Option.some_ne_none _)

/-- The sweep only ever waits for permits, and then some task holds one. -/
theorem Invariant.goesOn (h : t.Invariant s) (hincomplete : s.isComplete = false) :
    t.GoesOn s := by
  cases hsweep : s.sweep with
  | checkpoint row =>
    have hcheck : (t.step s .advance).isSome = true := by
      rw [step, hsweep]
      rfl
    exact goesOn_of_step rfl hcheck
  | complete =>
    have hne : s.tasks ≠ [] := by
      intro hnil
      simp [State.isComplete, hsweep, hnil] at hincomplete
    obtain ⟨task, hmem⟩ := List.exists_mem_of_ne_nil _ hne
    exact h.goesOn_of_task hmem (Or.inr hsweep)
  | cell row column =>
    cases henter : t.enter s row column with
    | some next =>
      have hadvance : (t.step s .advance).isSome = true := by
        rw [step, hsweep]
        simp only [henter]
        rfl
      exact goesOn_of_step rfl hadvance
    | none =>
      have hjobs : 1 ≤ jobs t.settings := Nat.le_max_right ..
      have hheld := h.permits
      rw [permits_of_enter_eq_none henter, Nat.zero_add] at hheld
      obtain ⟨task, hmem, htask⟩ := List.countP_pos_iff.1 (hheld ▸ hjobs)
      exact h.goesOn_of_task hmem (Or.inl htask)

theorem Invariant.exists_complete (h : t.Invariant s) : ∃ schedule s',
    t.execute s schedule = some s' ∧ s'.isComplete = true ∧
      schedule.all (!·.isForeign) = true := by
  -- on the work that is left
  induction hwork : t.workLeft s using Nat.strongRecOn generalizing s with
  | ind work ih =>
    cases hcomplete : s.isComplete with
    | true => exact ⟨[], s, rfl, hcomplete, rfl⟩
    | false =>
      obtain ⟨first, next, hfirst, hcount, hquiet⟩ := h.goesOn hcomplete
      have hless := workLeft_execute hfirst
      obtain ⟨rest, last, hrest, hlast, hquiet'⟩ :=
        ih (t.workLeft next) (by omega) (h.execute hfirst) rfl
      refine ⟨first ++ rest, last, ?_, hlast, ?_⟩
      · rw [execute_append, hfirst]
        exact hrest
      · rw [List.all_append, hquiet, hquiet']
        rfl

end Trial
end MergeTrial.Pass
