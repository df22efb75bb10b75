import Mathlib.Data.List.Perm.Subperm
import MergeTrial.Proofs.Pass.Calls

/-! How many invocations are under way at a time, and which strategies are invoked. Each holds one
of as many permits as there are jobs, from when the sweep takes up its cell until it ends, in
whatever way it does. With a single permit the invocations begin in the order of the plan. -/

namespace MergeTrial.Pass

theorem eq_of_perm_of_length_le_one {α : Type} {xs ys : List α} (h : xs.Perm ys)
    (hlength : xs.length ≤ 1) : xs = ys := by
  match xs, hlength with
  | [], _ => exact (List.nil_perm.1 h).symm
  | [_], _ => exact List.singleton_perm.1 h

namespace Task

theorem holdsPermit_of_isRunning {task : Task} (h : task.isRunning = true) : task.holdsPermit = true := by
  unfold isRunning at h
  unfold holdsPermit
  split at h
  · next hphase => rw [hphase]
  · exact absurd h Bool.false_ne_true
  · exact absurd h Bool.false_ne_true

theorem running_le_holding (tasks : List Task) :
    tasks.countP isRunning ≤ tasks.countP holdsPermit :=
  List.countP_mono_left fun _ _ => holdsPermit_of_isRunning

end Task

namespace Trial
variable {t : Trial} {s s' : State}

def present (t : Trial) : List String := (t.entrants.filter (·.available)).map (·.name)

def named? (t : Trial) (cell : Nat) : Option (String × String) :=
  (t.pair? cell).map fun pair => (pair.1.name, pair.2.name)

def called (t : Trial) (s : State) : List (String × String) := s.calls.filterMap t.named?

theorem filterMap_pair?_present (t : Trial) (k : Nat) :
    ((List.range (k * t.entrants.length)).filter t.isPresent).filterMap t.pair? =
      (t.pairs k).filter (·.2.available) := by
  rw [← filterMap_pair?, List.filter_filterMap, List.filterMap_filter]
  refine List.filterMap_congr fun cell _ => ?_
  rw [isPresent]
  cases t.pair? cell <;> rfl

theorem filterMap_named? (t : Trial) (k : Nat) :
    ((List.range (k * t.entrants.length)).filter t.isPresent).filterMap t.named? =
      plan (t.corpus.names.take k) t.present := by
  have hnamed : t.named? = fun cell => (t.pair? cell).map fun pair =>
    (pair.1.name, pair.2.name) := rfl
  rw [hnamed, ← List.map_filterMap, filterMap_pair?_present, pairs, List.filter_flatMap]
  simp only [List.filter_map, Function.comp_def, plan, present, Corpus.names, ← List.map_take,
    List.flatMap_map, List.map_flatMap, List.map_map]

theorem nodup_present (t : Trial) : t.present.Nodup :=
  t.nodup_names.sublist (List.filter_sublist.map _)

section
variable {channel : Option Channel} {schedule : List Event} (h : t.Leads channel schedule s)
include h

theorem isPrefix_taken : (List.range (t.reached s)).filter t.isPresent <+:
    (List.range (s.progress.evaluated * t.entrants.length)).filter t.isPresent := by
  obtain ⟨more, hmore⟩ := Nat.exists_eq_add_of_le (invariant_of_leads h).reached_bounds.2
  rw [hmore, List.range_add, List.filter_append]
  exact List.prefix_append ..

theorem length_called : (t.called s).length = s.calls.length := by
  refine List.filterMap_length_eq_length.2 fun cell hcell => ?_
  have hmem := (calls_perm_of_leads h).mem_iff.1 (List.mem_append_left _ hcell)
  obtain ⟨pair, hpair, -⟩ := (Option.any_eq_true ..).1 (List.mem_filter.1 hmem).2
  rw [named?, hpair]
  rfl

theorem called_subperm : (t.called s).Subperm
    (plan (t.corpus.names.take s.progress.evaluated) t.present) := by
  rw [← filterMap_named?]
  refine List.Subperm.trans ?_ ((isPrefix_taken h).sublist.filterMap _).subperm
  have hperm := (calls_perm_of_leads h).filterMap t.named?
  rw [List.filterMap_append] at hperm
  exact (List.sublist_append_left ..).subperm.trans hperm.subperm

theorem called_perm (hcomplete : s.isComplete = true) : (t.called s).Perm
    (plan (t.corpus.names.take s.progress.evaluated) t.present) := by
  rw [← filterMap_named?]
  exact (calls_perm_of_isComplete h hcomplete).filterMap _

end

theorem Move.calls_append {event : Event} (hmove : t.Move s event s') (hinvariant : t.Invariant s)
    (hjobs : jobs t.settings = 1)
    (h : s.calls ++ Task.waiting s.tasks = s.progress.spawned) :
    s'.calls ++ Task.waiting s'.tasks = s'.progress.spawned := by
  have hpermits := hinvariant.permits
  have hholding := Task.length_waiting_le s.tasks
  have hone : (Task.waiting s.tasks).length ≤ 1 := by omega
  cases hmove with
  | spawns row column scenario entrant hsweep hscenario hentrant hthere hpermit =>
    have hnone : Task.waiting s.tasks = [] := List.length_eq_zero_iff.1 (by omega)
    rw [hnone, List.append_nil] at h
    rw [Task.waiting, List.filter_append, List.map_append, ← Task.waiting, hnone, List.nil_append,
      h]
    rfl
  | starts task rest hperm hready =>
    have hwaiting := eq_of_perm_of_length_le_one (Task.waiting_of_ready hperm hready) hone
    have hrest : Task.waiting rest = [] := by
      rw [hwaiting, List.length_cons] at hone
      exact List.length_eq_zero_iff.1 (by omega)
    rw [Task.waiting_append_of_not_ready (by simp), hrest, List.append_nil, ← h, hwaiting, hrest]
  | finishes task rest since hperm hrunning hdue =>
    have hsame := Task.waiting_of_not_ready hperm (by simp [hrunning])
    rw [Task.waiting_append_of_not_ready (by simp), ← eq_of_perm_of_length_le_one hsame hone, h]
  | joins task rest run hover hperm hended =>
    have hsame := Task.waiting_of_not_ready hperm (by simp [hended])
    rw [Progress.spawned_join, ← eq_of_perm_of_length_le_one hsame hone, h]
  | sweepEnds | stops | passes | rowEnds | skips | waits | sends | closes => exact h

theorem calls_append_of_leads {channel : Option Channel} {schedule : List Event}
    (h : t.Leads channel schedule s) (hjobs : jobs t.settings = 1) :
    s.calls ++ Task.waiting s.tasks = (List.range (t.reached s)).filter t.isPresent := by
  rw [← (invariant_of_leads h).collects.spawned]
  obtain ⟨first, hbegin, hrun⟩ := h
  have hstart : t.Invariant first ∧
      first.calls ++ Task.waiting first.tasks = first.progress.spawned := by
    refine ⟨invariant_begin hbegin, ?_⟩
    obtain ⟨-, rfl⟩ := begin_eq_ok hbegin
    rfl
  have hkept := execute_induction (motive := fun s =>
      t.Invariant s ∧ s.calls ++ Task.waiting s.tasks = s.progress.spawned)
    (fun _ _ _ _ hmove hs => ⟨hs.1.move hmove, hmove.calls_append hs.1 hjobs hs.2⟩) hrun hstart
  exact hkept.2

theorem isPrefix_called {channel : Option Channel} {schedule : List Event}
    (h : t.Leads channel schedule s) (hjobs : jobs t.settings = 1) :
    t.called s <+: plan (t.corpus.names.take s.progress.evaluated) t.present := by
  obtain ⟨rest, hrest⟩ := isPrefix_taken h
  rw [← filterMap_named?, ← hrest, ← calls_append_of_leads h hjobs, List.append_assoc,
    List.filterMap_append]
  exact List.prefix_append ..

end Trial

/-- In every state of a pass the permits handed out and those left add up to the number of jobs, and
no more invocations are under way. A pass invokes the strategies that are there, on the scenarios
that it counts, once each; one at a time, it does so in the order of the plan. -/
theorem calls_within_permits (t : Trial) (channel : Option Channel) (schedule : List Event)
    (s : State) (h : t.Leads channel schedule s) :
    s.tasks.countP Task.isRunning ≤ max t.settings.jobs 1 ∧
    s.permits + s.tasks.countP Task.holdsPermit = max t.settings.jobs 1 ∧
    (t.called s).length = s.calls.length ∧ (t.called s).Nodup ∧
    (t.called s).Subperm (plan (t.corpus.names.take s.progress.evaluated) t.present) ∧
    (s.isComplete = true →
      (t.called s).Perm (plan (t.corpus.names.take s.progress.evaluated) t.present)) ∧
    (t.settings.jobs ≤ 1 → s.tasks.countP Task.isRunning ≤ 1 ∧
      t.called s <+: plan (t.corpus.names.take s.progress.evaluated) t.present ∧
      (s.isComplete = true →
        t.called s = plan (t.corpus.names.take s.progress.evaluated) t.present)) := by
  have hpermits := (Trial.invariant_of_leads h).permits
  have hrunning := Task.running_le_holding s.tasks
  have hjobs : jobs t.settings = max t.settings.jobs 1 := rfl
  have hplan : (plan (t.corpus.names.take s.progress.evaluated) t.present).Nodup :=
    nodup_plan ((List.take_sublist ..).nodup t.corpus.nodup_names) t.nodup_present
  have hsubperm := Trial.called_subperm h
  refine ⟨by omega, hpermits, Trial.length_called h, ?_, hsubperm, Trial.called_perm h,
    fun hone => ⟨by omega, ?_⟩⟩
  · obtain ⟨called, hperm, hsublist⟩ := hsubperm
    exact hperm.nodup_iff.1 (hplan.sublist hsublist)
  · have hfirst := Trial.isPrefix_called h (by omega)
    refine ⟨hfirst, fun hcomplete => ?_⟩
    exact hfirst.eq_of_length (Trial.called_perm h hcomplete).length_eq

def troubledTrial : Trial where
  settings := ⟨100, 0, .separate, none⟩
  registered := [⟨"late", true, fun _ => ⟨700, some (.success "b")⟩⟩,
    ⟨"gone", false, fun _ => ⟨0, none⟩⟩, ⟨"broken", true, fun _ => ⟨5, none⟩⟩]
  corpus := (Corpus.ofScenarios [⟨"S1", .conflict, "a", "b", "c", none, none⟩,
    ⟨"S0", .success, "a", "b", "c", none, none⟩]).toOption.getD .empty

def troubledSchedule : List Event :=
  [.advance, .advance, .start 0, .advance, .wait 600, .finish 0, .advance, .start 2, .wait 5,
    .finish 2, .advance, .advance, .advance, .start 3, .wait 600, .advance, .finish 3, .advance,
    .advance, .advance, .start 5, .wait 5, .finish 5, .join 5, .join 0, .join 2, .join 3]

theorem troubledTrial_calls_within_permits : ∃ s,
    troubledTrial.Leads none troubledSchedule s ∧ s.isComplete = true ∧
      troubledTrial.settings.jobs ≤ 1 ∧ s.permits = 1 ∧
      troubledTrial.called s =
        [("S0", "late"), ("S0", "broken"), ("S1", "late"), ("S1", "broken")] := by
  have hdone : (troubledTrial.execute ⟨.checkpoint 0, 0, 1, [], [], .empty, none⟩
      troubledSchedule).any (fun s => s.isComplete && s.progress.evaluated == 2) = true := by
    decide
  obtain ⟨s, hleads, hs⟩ := Trial.exists_leads rfl hdone
  obtain ⟨hcomplete, hevaluated⟩ := Bool.and_eq_true_iff.1 hs
  obtain ⟨-, hpermits, -, -, -, -, hsingle⟩ := calls_within_permits troubledTrial none _ s hleads
  have hjobs : troubledTrial.settings.jobs ≤ 1 := by decide
  have hcalled := (hsingle hjobs).2.2 hcomplete
  rw [eq_of_beq hevaluated] at hcalled
  have hnone : s.tasks = [] := List.isEmpty_iff.1 (Bool.and_eq_true_iff.1 hcomplete).2
  rw [hnone] at hpermits
  exact ⟨s, hleads, hcomplete, hjobs, hpermits, hcalled.trans (by decide)⟩

end MergeTrial.Pass
