import MergeTrial.Proofs.Pass.Collection
import MergeTrial.Proofs.Pass.Step

/-! What holds in every reachable state of a pass: the sweep has collected the cells behind it, each
task is the one of its cell, and no permit is lost. -/

namespace MergeTrial.Pass
namespace Trial
variable {t : Trial} {s s' : State}

def reached (t : Trial) (s : State) : Nat :=
  match s.sweep with
  | .checkpoint row => row * t.entrants.length
  | .cell row column => row * t.entrants.length + column
  | .complete => s.progress.evaluated * t.entrants.length

def Placed (t : Trial) (s : State) : Prop :=
  match s.sweep with
  | .checkpoint row =>
    s.progress.evaluated = row ∧ row ≤ t.corpus.size ∧ s.progress.cancelled = false
  | .cell row column => s.progress.evaluated = row + 1 ∧ row < t.corpus.size ∧
      column ≤ t.entrants.length ∧ s.progress.cancelled = false
  | .complete => s.progress.evaluated ≤ t.corpus.size ∧
      s.progress.cancelled = decide (s.progress.evaluated < t.corpus.size)

structure Owns (t : Trial) (task : Task) : Prop where
  pair : t.pair? task.cell = some (task.scenario, task.entrant)
  available : task.entrant.available = true
  ended : ∀ run, task.phase = .ended run → run = task.run t.settings.timeout

structure Invariant (t : Trial) (s : State) : Prop where
  collects : s.progress.Collects t (t.reached s) (s.tasks.map Task.cell)
  owns : ∀ task ∈ s.tasks, t.Owns task
  placed : t.Placed s
  permits : s.permits + s.tasks.countP Task.holdsPermit = jobs t.settings

theorem Owns.run_eq {task : Task} (h : t.Owns task) :
    task.run t.settings.timeout = t.yield task.scenario task.entrant := by
  rw [yield, if_pos h.available]
  rfl

theorem Owns.setPhase {task : Task} (h : t.Owns task) {phase : Phase}
    (hended : ∀ run, phase = .ended run → run = task.run t.settings.timeout) :
    t.Owns { task with phase := phase } :=
  ⟨h.pair, h.available, hended⟩

theorem pair?_at {row column : Nat} {scenario : Scenario} {entrant : Entrant Id}
    (hscenario : t.corpus.scenarios[row]? = some scenario)
    (hentrant : t.entrants[column]? = some entrant) :
    t.pair? (row * t.entrants.length + column) = some (scenario, entrant) := by
  rw [pair?_cell t (List.getElem?_eq_some_iff.1 hentrant).1, hscenario, hentrant]
  rfl

theorem perm_replace {task : Task} {tasks rest : List Task} (hperm : tasks.Perm (task :: rest))
    (phase : Phase) :
    ((rest ++ [{ task with phase := phase }]).map Task.cell).Perm (tasks.map Task.cell) := by
  rw [List.map_append]
  exact List.perm_append_comm.trans (hperm.map Task.cell).symm

theorem owns_replace {task : Task} {tasks rest : List Task} (hperm : tasks.Perm (task :: rest))
    (howns : ∀ task ∈ tasks, t.Owns task) {phase : Phase}
    (hended : ∀ run, phase = .ended run → run = task.run t.settings.timeout) :
    ∀ other ∈ rest ++ [{ task with phase := phase }], t.Owns other := by
  intro other hother
  rcases List.mem_append.1 hother with hother | hother
  · exact howns other (hperm.mem_iff.2 (List.mem_cons_of_mem _ hother))
  · obtain rfl := List.mem_singleton.1 hother
    exact (howns task (hperm.mem_iff.2 List.mem_cons_self)).setPhase hended

theorem invariant_begin {channel : Option Channel} (h : t.begin channel = .ok s) :
    t.Invariant s := by
  obtain ⟨-, rfl⟩ := begin_eq_ok h
  refine ⟨?_, fun task htask => absurd htask List.not_mem_nil, ⟨rfl, Nat.zero_le _, rfl⟩, rfl⟩
  simpa [reached] using Progress.Collects.empty t

theorem Move.permits_eq {event : Event} (hmove : t.Move s event s') :
    s'.permits + s'.tasks.countP Task.holdsPermit =
      s.permits + s.tasks.countP Task.holdsPermit := by
  cases hmove with
  | spawns row column scenario entrant hsweep hscenario hentrant hthere hpermit =>
    simp only [List.countP_append, List.countP_singleton, Task.holdsPermit, if_true]
    omega
  | starts task rest hperm hready =>
    rw [hperm.countP_eq]
    simp [Task.holdsPermit, hready, List.countP_append]
  | finishes task rest since hperm hrunning hdue =>
    rw [hperm.countP_eq]
    simp [Task.holdsPermit, hrunning, List.countP_append]
    omega
  | joins task rest run hover hperm hended =>
    rw [hperm.countP_eq]
    simp [Task.holdsPermit, hended]
  | sweepEnds | stops | passes | rowEnds | skips | waits | sends | closes => rfl

theorem Placed.move {event : Event} (hmove : t.Move s event s') (h : t.Placed s) :
    t.Placed s' := by
  cases hmove with
  | sweepEnds row hsweep hrow =>
    simp only [Placed, hsweep] at h
    obtain ⟨hevaluated, hle, hcancelled⟩ := h
    have hsize : t.corpus.size ≤ row := hrow
    simp only [Placed, hevaluated, hcancelled]
    exact ⟨hle, (decide_eq_false (Nat.not_lt.2 hsize)).symm⟩
  | stops row channel hsweep hrow hchannel hstops =>
    simp only [Placed, hsweep] at h
    obtain ⟨hevaluated, hle, -⟩ := h
    simp only [Placed, hevaluated]
    exact ⟨hle, (decide_eq_true hrow).symm⟩
  | passes row hsweep hrow hgoes =>
    simp only [Placed, hsweep] at h
    obtain ⟨hevaluated, -, hcancelled⟩ := h
    simp only [Placed, hevaluated]
    exact ⟨trivial, hrow, Nat.zero_le _, hcancelled⟩
  | rowEnds row column hsweep hend =>
    simp only [Placed, hsweep] at h
    exact ⟨h.1, h.2.1, h.2.2.2⟩
  | skips row column scenario entrant hsweep hscenario hentrant hgone =>
    simp only [Placed, hsweep] at h
    exact ⟨h.1, h.2.1, (List.getElem?_eq_some_iff.1 hentrant).1, h.2.2.2⟩
  | spawns row column scenario entrant hsweep hscenario hentrant hthere hpermit =>
    simp only [Placed, hsweep] at h
    exact ⟨h.1, h.2.1, (List.getElem?_eq_some_iff.1 hentrant).1, h.2.2.2⟩
  | joins task rest run hover hperm hended =>
    simpa only [Placed, hover, Progress.evaluated_join, Progress.cancelled_join] using h
  | starts | finishes | waits | sends | closes => exact h

theorem owns_move {event : Event} (hmove : t.Move s event s')
    (h : ∀ task ∈ s.tasks, t.Owns task) : ∀ task ∈ s'.tasks, t.Owns task := by
  cases hmove with
  | spawns row column scenario entrant hsweep hscenario hentrant hthere hpermit =>
    intro task htask
    rcases List.mem_append.1 htask with htask | htask
    · exact h task htask
    · obtain rfl := List.mem_singleton.1 htask
      exact ⟨pair?_at hscenario hentrant, hthere, fun run hrun => nomatch hrun⟩
  | starts task rest hperm hready =>
    exact owns_replace hperm h fun run hrun => nomatch hrun
  | finishes task rest since hperm hrunning hdue =>
    exact owns_replace hperm h fun run hrun => (Phase.ended.inj hrun).symm
  | joins task rest run hover hperm hended =>
    exact fun other hother => h other (hperm.mem_iff.2 (List.mem_cons_of_mem _ hother))
  | sweepEnds | stops | passes | rowEnds | skips | waits | sends | closes => exact h

theorem Invariant.collects_move {event : Event} (hmove : t.Move s event s') (h : t.Invariant s) :
    s'.progress.Collects t (t.reached s') (s'.tasks.map Task.cell) := by
  have hplaced := h.placed
  have hcollects := h.collects
  cases hmove with
  | sweepEnds row hsweep hrow =>
    simp only [Placed, reached, hsweep] at hplaced hcollects
    simpa only [reached, hplaced.1] using hcollects
  | stops row channel hsweep hrow hchannel hstops =>
    simp only [Placed, reached, hsweep] at hplaced hcollects
    simp only [reached, hplaced.1]
    exact hcollects.of_eq rfl rfl
  | passes row hsweep hrow hgoes =>
    simp only [reached, hsweep] at hcollects
    simp only [reached, Nat.add_zero]
    exact hcollects.of_eq rfl rfl
  | rowEnds row column hsweep hend =>
    simp only [Placed, reached, hsweep] at hplaced hcollects
    have hrow : row < t.corpus.scenarios.length := hplaced.2.1
    obtain rfl : column = t.entrants.length := by omega
    simpa only [reached, Nat.succ_mul] using hcollects
  | skips row column scenario entrant hsweep hscenario hentrant hgone =>
    simp only [reached, hsweep] at hcollects
    exact hcollects.skip (pair?_at hscenario hentrant) hgone
  | spawns row column scenario entrant hsweep hscenario hentrant hthere hpermit =>
    simp only [reached, hsweep] at hcollects
    simpa only [reached, List.map_append, List.map_cons, List.map_nil, Nat.add_assoc] using
      hcollects.spawn (pair?_at hscenario hentrant) hthere
  | starts task rest hperm hready => exact hcollects.perm (perm_replace hperm _)
  | finishes task rest since hperm hrunning hdue => exact hcollects.perm (perm_replace hperm _)
  | joins task rest run hover hperm hended =>
    have htask := h.owns task (hperm.mem_iff.2 List.mem_cons_self)
    obtain rfl := htask.ended run hended
    have hjoined := (hcollects.perm (hperm.map Task.cell).symm).join htask.pair
    rw [htask.run_eq]
    simpa only [reached, hover, Progress.evaluated_join] using hjoined
  | waits | sends | closes => exact hcollects

theorem Invariant.move {event : Event} (hmove : t.Move s event s') (h : t.Invariant s) :
    t.Invariant s' where
  collects := h.collects_move hmove
  owns := owns_move hmove h.owns
  placed := Placed.move hmove h.placed
  permits := hmove.permits_eq.trans h.permits

theorem Invariant.execute {schedule : List Event} (h : t.Invariant s)
    (hrun : t.execute s schedule = some s') : t.Invariant s' :=
  execute_induction (fun _ _ _ _ hmove hinv => hinv.move hmove) hrun h

theorem invariant_of_leads {channel : Option Channel} {schedule : List Event}
    (h : t.Leads channel schedule s) : t.Invariant s := by
  obtain ⟨first, hbegin, hrun⟩ := h
  exact (invariant_begin hbegin).execute hrun

theorem Invariant.collects_of_isComplete (h : t.Invariant s) (hcomplete : s.isComplete = true) :
    s.progress.Collects t (s.progress.evaluated * t.entrants.length) [] := by
  simp only [State.isComplete, Bool.and_eq_true, beq_iff_eq, List.isEmpty_iff] at hcomplete
  simpa only [reached, hcomplete.1, hcomplete.2, List.map_nil] using h.collects

theorem Invariant.placed_of_isComplete (h : t.Invariant s) (hcomplete : s.isComplete = true) :
    s.progress.evaluated ≤ t.corpus.size ∧
      s.progress.cancelled = decide (s.progress.evaluated < t.corpus.size) := by
  simp only [State.isComplete, Bool.and_eq_true, beq_iff_eq] at hcomplete
  simpa only [Placed, hcomplete.1] using h.placed

end Trial
end MergeTrial.Pass
