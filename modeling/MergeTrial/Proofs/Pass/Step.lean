import MergeTrial.Proofs.Pass.Plan

/-! What one event can do to a pass: every step is one of twelve moves. -/

namespace MergeTrial.Pass

theorem Task.take?_spec {cell : Nat} {tasks rest : List Task} {task : Task}
    (h : Task.take? cell tasks = some (task, rest)) :
    tasks.Perm (task :: rest) ∧ task.cell = cell := by
  induction tasks generalizing rest with
  | nil => simp [take?] at h
  | cons first others ih =>
    simp only [take?] at h
    split at h
    · next hcell =>
      obtain ⟨rfl, rfl⟩ := Prod.mk.inj (Option.some.inj h)
      exact ⟨List.Perm.refl _, hcell⟩
    · obtain ⟨⟨found, left⟩, hfound, heq⟩ := Option.map_eq_some_iff.1 h
      obtain ⟨rfl, rfl⟩ := Prod.mk.inj heq
      obtain ⟨hperm, hcell⟩ := ih hfound
      exact ⟨(hperm.cons first).trans (List.Perm.swap ..), hcell⟩

namespace Trial

/-- The moves of a pass, each with the conditions for it and the state after it. -/
inductive Move (t : Trial) (s : State) : Event → State → Prop
  | sweepEnds (row : Nat) (hsweep : s.sweep = .checkpoint row)
      (hrow : t.corpus.scenarios.length ≤ row) : Move t s .advance { s with sweep := .complete }
  | stops (row : Nat) (channel : Channel) (hsweep : s.sweep = .checkpoint row)
      (hrow : row < t.corpus.scenarios.length) (hchannel : s.channel = some channel)
      (hstops : channel.receive.1.stops = true) :
      Move t s .advance { s with
        sweep := .complete
        channel := some channel.receive.2
        progress := { s.progress with cancelled := true } }
  | passes (row : Nat) (hsweep : s.sweep = .checkpoint row)
      (hrow : row < t.corpus.scenarios.length)
      (hgoes : ∀ channel, s.channel = some channel → channel.receive.1.stops = false) :
      Move t s .advance { s with
        sweep := .cell row 0
        channel := s.channel.map fun channel => channel.receive.2
        progress := { s.progress with evaluated := s.progress.evaluated + 1 } }
  | rowEnds (row column : Nat) (hsweep : s.sweep = .cell row column)
      (hend : t.corpus.scenarios.length ≤ row ∨ t.entrants.length ≤ column) :
      Move t s .advance { s with sweep := .checkpoint (row + 1) }
  | skips (row column : Nat) (scenario : Scenario) (entrant : Entrant Id)
      (hsweep : s.sweep = .cell row column) (hscenario : t.corpus.scenarios[row]? = some scenario)
      (hentrant : t.entrants[column]? = some entrant) (hgone : entrant.available = false) :
      Move t s .advance { s with
        sweep := .cell row (column + 1)
        progress := s.progress.finish (row * t.entrants.length + column)
          (.unavailable scenario entrant.name) }
  | spawns (row column : Nat) (scenario : Scenario) (entrant : Entrant Id)
      (hsweep : s.sweep = .cell row column) (hscenario : t.corpus.scenarios[row]? = some scenario)
      (hentrant : t.entrants[column]? = some entrant) (hthere : entrant.available = true)
      (hpermit : 0 < s.permits) :
      Move t s .advance { s with
        sweep := .cell row (column + 1)
        permits := s.permits - 1
        tasks := s.tasks ++ [⟨row * t.entrants.length + column, scenario, entrant, .ready⟩]
        progress := s.progress.spawn (row * t.entrants.length + column) }
  | starts (task : Task) (rest : List Task) (hperm : s.tasks.Perm (task :: rest))
      (hready : task.phase = .ready) :
      Move t s (.start task.cell) { s with
        tasks := rest ++ [{ task with phase := .running s.clock }]
        calls := s.calls ++ [task.cell] }
  | finishes (task : Task) (rest : List Task) (since : Nat) (hperm : s.tasks.Perm (task :: rest))
      (hrunning : task.phase = .running since)
      (hdue : since + task.duration t.settings.timeout ≤ s.clock) :
      Move t s (.finish task.cell) { s with
        permits := s.permits + 1
        tasks := rest ++ [{ task with phase := .ended (task.run t.settings.timeout) }] }
  | joins (task : Task) (rest : List Task) (run : Option Run) (hover : s.sweep = .complete)
      (hperm : s.tasks.Perm (task :: rest)) (hended : task.phase = .ended run) :
      Move t s (.join task.cell) { s with
        tasks := rest
        progress := s.progress.join task.cell run }
  | waits (time : Nat) : Move t s (.wait time) { s with clock := s.clock + time }
  | sends (channel : Channel) (hchannel : s.channel = some channel) :
      Move t s .send { s with channel := some channel.send }
  | closes : Move t s .close { s with channel := s.channel.map Channel.close }

variable {t : Trial} {s s' : State}

theorem move_of_check {row : Nat} (hsweep : s.sweep = .checkpoint row) :
    t.Move s .advance (t.check s row) := by
  unfold check
  split
  · next hrow => exact .sweepEnds row hsweep hrow
  · next hrow =>
    have hrow : row < t.corpus.scenarios.length := Nat.lt_of_not_le hrow
    cases hchannel : s.channel with
    | none =>
      have hmove := Move.passes (t := t) row hsweep hrow
        (by rw [hchannel]; exact fun _ h => absurd h (Option.some_ne_none _).symm)
      rw [hchannel] at hmove
      simpa using hmove
    | some channel =>
      cases hstops : channel.receive.1.stops with
      | true =>
        simpa [hstops] using Move.stops (t := t) row channel hsweep hrow hchannel hstops
      | false =>
        have hmove := Move.passes (t := t) row hsweep hrow
          (by rw [hchannel]; rintro _ ⟨⟩; exact hstops)
        rw [hchannel] at hmove
        simpa [hstops] using hmove

theorem move_of_enter {row column : Nat} (hsweep : s.sweep = .cell row column)
    (h : t.enter s row column = some s') : t.Move s .advance s' := by
  unfold enter at h
  simp only at h
  split at h
  · next scenario entrant hscenario hentrant =>
    have hgone := mem_unavailable t.nodup_names (List.mem_of_getElem? hentrant)
    split at h
    · next habsent =>
      obtain rfl := Option.some.inj h
      exact .skips row column scenario entrant hsweep hscenario hentrant (hgone.1 habsent)
    · next hpresent =>
      split at h
      · exact absurd h.symm (Option.some_ne_none _)
      · next hpermit =>
        obtain rfl := Option.some.inj h
        exact .spawns row column scenario entrant hsweep hscenario hentrant
          (Bool.not_eq_false _ ▸ fun hfalse => hpresent (hgone.2 hfalse))
          (Nat.pos_of_ne_zero hpermit)
  · next hnone =>
    obtain rfl := Option.some.inj h
    refine .rowEnds row column hsweep ?_
    by_contra hin
    obtain ⟨hrow, hcolumn⟩ := not_or.1 hin
    exact hnone _ _ (List.getElem?_eq_getElem (Nat.lt_of_not_le hrow))
      (List.getElem?_eq_getElem (Nat.lt_of_not_le hcolumn))

theorem move_of_start {cell : Nat} (h : start s cell = some s') : t.Move s (.start cell) s' := by
  unfold start at h
  split at h
  · next number scenario entrant rest htake =>
    obtain ⟨hperm, rfl⟩ := Task.take?_spec htake
    obtain rfl := Option.some.inj h
    exact .starts _ rest hperm rfl
  · exact absurd h.symm (Option.some_ne_none _)

theorem move_of_finish {cell : Nat} (h : t.finish s cell = some s') :
    t.Move s (.finish cell) s' := by
  unfold finish at h
  split at h
  · next number scenario entrant since rest htake =>
    obtain ⟨hperm, rfl⟩ := Task.take?_spec htake
    simp only at h
    split at h
    · next hdue =>
      obtain rfl := Option.some.inj h
      exact .finishes _ rest since hperm rfl hdue
    · exact absurd h.symm (Option.some_ne_none _)
  · exact absurd h.symm (Option.some_ne_none _)

theorem move_of_join {cell : Nat} (h : join s cell = some s') : t.Move s (.join cell) s' := by
  unfold join at h
  split at h
  · next number scenario entrant run rest hover htake =>
    obtain ⟨hperm, rfl⟩ := Task.take?_spec htake
    obtain rfl := Option.some.inj h
    exact .joins _ rest run hover hperm rfl
  · exact absurd h.symm (Option.some_ne_none _)

theorem move_of_step {event : Event} (h : t.step s event = some s') : t.Move s event s' := by
  cases event with
  | advance =>
    simp only [step] at h
    split at h
    · next row hsweep =>
      obtain rfl := Option.some.inj h
      exact move_of_check hsweep
    · next row column hsweep => exact move_of_enter hsweep h
    · exact absurd h.symm (Option.some_ne_none _)
  | start cell => exact move_of_start h
  | finish cell => exact move_of_finish h
  | join cell => exact move_of_join h
  | wait time =>
    obtain rfl := Option.some.inj h
    exact .waits time
  | send =>
    simp only [step] at h
    split at h
    · next pending hchannel =>
      obtain rfl := Option.some.inj h
      exact .sends _ hchannel
    · exact absurd h.symm (Option.some_ne_none _)
  | close =>
    obtain rfl := Option.some.inj h
    exact .closes

theorem execute_induction {motive : State → Prop} {schedule : List Event}
    (hmove : ∀ s s', ∀ event ∈ schedule, t.Move s event s' → motive s → motive s')
    (h : t.execute s schedule = some s') (hs : motive s) : motive s' := by
  induction schedule generalizing s with
  | nil => exact Option.some.inj h ▸ hs
  | cons event rest ih =>
    obtain ⟨next, hnext, hrest⟩ := Option.bind_eq_some_iff.1 h
    exact ih (fun s s' other hother => hmove s s' other (List.mem_cons_of_mem _ hother)) hrest
      (hmove _ _ _ List.mem_cons_self (move_of_step hnext) hs)

theorem execute_cons (t : Trial) (s : State) (event : Event) (rest : List Event) :
    t.execute s (event :: rest) = (t.step s event).bind fun next => t.execute next rest := rfl

theorem execute_append (t : Trial) (s : State) (as bs : List Event) :
    t.execute s (as ++ bs) = (t.execute s as).bind fun next => t.execute next bs :=
  List.foldlM_append

theorem begin_eq_ok {channel : Option Channel} (h : t.begin channel = .ok s) :
    jobs t.settings ≤ maxJobs ∧
      s = ⟨.checkpoint 0, 0, jobs t.settings, [], [], .empty, channel⟩ := by
  unfold begin checkJobs at h
  split at h
  · next hjobs => exact ⟨hjobs, (Except.ok.inj h).symm⟩
  · cases h

theorem begin_of_le {channel : Option Channel} (h : jobs t.settings ≤ maxJobs) :
    t.begin channel = .ok ⟨.checkpoint 0, 0, jobs t.settings, [], [], .empty, channel⟩ := by
  rw [begin, checkJobs, if_pos h]
  rfl

theorem exists_leads {channel : Option Channel} {first : State}
    (hbegin : t.begin channel = .ok first) {schedule : List Event} {p : State → Bool}
    (h : (t.execute first schedule).any p = true) :
    ∃ s, t.Leads channel schedule s ∧ p s = true := by
  obtain ⟨s, hrun, hs⟩ := (Option.any_eq_true ..).1 h
  exact ⟨s, ⟨first, hbegin, hrun⟩, hs⟩

end Trial
end MergeTrial.Pass
