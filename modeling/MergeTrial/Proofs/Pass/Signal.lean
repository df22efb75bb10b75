import Mathlib.Data.List.Perm.Subperm
import MergeTrial.Proofs.Pass.Calls

/-! What a signal to stop does to a pass. The sweep runs ahead of the invocations: it may have
passed the checkpoint of a scenario while none of its invocations has begun. Such a scenario is
still gone through after a signal; but the sweep passes no other checkpoint. -/

namespace MergeTrial.Pass

def State.Signalled (s : State) : Prop := ∃ channel, s.channel = some channel ∧ 0 < channel.pending

/-- The sweep can count no other scenario. -/
def State.Held (evaluated : Nat) (s : State) : Prop :=
  s.progress.evaluated = evaluated ∧ (s.sweep = .complete ∨ s.Signalled)

def Trial.begunBetween (t : Trial) (s s' : State) : List Nat :=
  (List.range t.corpus.size).filter fun row => !t.hasBegun s row && t.hasBegun s' row

namespace Trial
variable {t : Trial} {s s' : State}

theorem stops_of_pending {channel : Channel} (h : 0 < channel.pending) :
    channel.receive.1.stops = true := by
  unfold Channel.receive
  split
  · next hnone => exact absurd hnone (Nat.ne_of_gt h)
  · rfl
  · rfl

theorem held_move {evaluated : Nat} {event : Event} (hmove : t.Move s event s')
    (h : s.Held evaluated) : s'.Held evaluated := by
  obtain ⟨hevaluated, hheld⟩ := h
  -- a sweep within a row is not over, so a signal holds it
  have hsignalled : ∀ {row column}, s.sweep = .cell row column → s.Signalled :=
    fun hsweep => hheld.resolve_left fun hover => nomatch hsweep.symm.trans hover
  cases hmove with
  | sweepEnds | stops => exact ⟨hevaluated, Or.inl rfl⟩
  | passes row hsweep hrow hgoes =>
    rcases hheld with hover | ⟨channel, hchannel, hpending⟩
    · exact nomatch hsweep.symm.trans hover
    · exact nomatch (stops_of_pending hpending).symm.trans (hgoes channel hchannel)
  | rowEnds row column hsweep hend => exact ⟨hevaluated, Or.inr (hsignalled hsweep)⟩
  | skips row column scenario entrant hsweep hscenario hentrant hgone =>
    exact ⟨hevaluated, Or.inr (hsignalled hsweep)⟩
  | spawns row column scenario entrant hsweep hscenario hentrant hthere hpermit =>
    exact ⟨hevaluated, Or.inr (hsignalled hsweep)⟩
  | joins task rest run hover hperm hended =>
    exact ⟨(Progress.evaluated_join ..).trans hevaluated, hheld⟩
  | sends channel hchannel =>
    exact ⟨hevaluated, hheld.imp_right fun _ => ⟨_, rfl, Nat.succ_pos _⟩⟩
  | closes =>
    refine ⟨hevaluated, hheld.imp_right fun ⟨channel, hchannel, hpending⟩ => ?_⟩
    exact ⟨channel.close, congrArg (Option.map Channel.close) hchannel, hpending⟩
  | starts | finishes | waits => exact ⟨hevaluated, hheld⟩

theorem Leads.append {channel : Option Channel} {schedule rest : List Event}
    (h : t.Leads channel schedule s) (hrun : t.execute s rest = some s') :
    t.Leads channel (schedule ++ rest) s' := by
  obtain ⟨first, hbegin, hfirst⟩ := h
  exact ⟨first, hbegin, by rw [execute_append, hfirst, Option.bind_some, hrun]⟩

section
variable {channel : Option Channel} {schedule schedule' : List Event}

theorem mem_calls (h : t.Leads channel schedule s) {cell : Nat} (hcell : cell ∈ s.calls) :
    cell < t.reached s ∧ t.isPresent cell = true := by
  have hmem := (calls_perm_of_leads h).mem_iff.1 (List.mem_append_left _ hcell)
  rwa [List.mem_filter, List.mem_range] at hmem

theorem lt_evaluated_of_hasBegun (h : t.Leads channel schedule s) {row : Nat}
    (hrow : t.hasBegun s row = true) : row < s.progress.evaluated := by
  obtain ⟨column, -, hcell⟩ := hasBegun_iff.1 hrow
  by_contra hle
  have hbound := (invariant_of_leads h).reached_bounds.2
  have hrows := Nat.mul_le_mul_right t.entrants.length (Nat.le_of_not_lt hle)
  have hreached := (mem_calls h hcell).1
  omega

theorem Invariant.length_waiting_le (h : t.Invariant s) :
    (Task.waiting s.tasks).length ≤ jobs t.settings := by
  have hholding := Task.length_waiting_le s.tasks
  have hpermits := h.permits
  omega

theorem mem_of_mem_begunBetween (h : t.Leads channel schedule s)
    (h' : t.Leads channel schedule' s') (hevaluated : s'.progress.evaluated = s.progress.evaluated)
    {row : Nat} (hrow : row ∈ t.begunBetween s s') : row ∈
      (s.progress.evaluated - 1) ::
        (Task.waiting s.tasks).map fun cell => cell / t.entrants.length := by
  obtain ⟨-, hrow⟩ := List.mem_filter.1 hrow
  obtain ⟨hbefore, hafter⟩ := Bool.and_eq_true_iff.1 hrow
  have hlt := lt_evaluated_of_hasBegun h' hafter
  rw [hevaluated] at hlt
  obtain ⟨column, hcolumn, hcell⟩ := hasBegun_iff.1 hafter
  by_cases hlast : row = s.progress.evaluated - 1
  · exact hlast ▸ List.mem_cons_self
  · have hreached : row * t.entrants.length + column < t.reached s := by
      have hrows : (row + 1) * t.entrants.length ≤
          (s.progress.evaluated - 1) * t.entrants.length := Nat.mul_le_mul_right _ (by omega)
      have hbound := (invariant_of_leads h).reached_bounds.1
      rw [Nat.succ_mul] at hrows
      omega
    have hmem := (calls_perm_of_leads h).mem_iff.2
      (List.mem_filter.2 ⟨List.mem_range.2 hreached, (mem_calls h' hcell).2⟩)
    have hnot : row * t.entrants.length + column ∉ s.calls := fun hmem =>
      absurd (hasBegun_iff.2 ⟨column, hcolumn, hmem⟩) (by simpa using hbefore)
    have hwaiting := (List.mem_append.1 hmem).resolve_left hnot
    refine List.mem_cons_of_mem _ (List.mem_map.2 ⟨_, hwaiting, ?_⟩)
    rw [Nat.mul_comm, Nat.mul_add_div (Nat.zero_lt_of_lt hcolumn), Nat.div_eq_of_lt hcolumn,
      Nat.add_zero]

theorem length_begunBetween_le (h : t.Leads channel schedule s)
    (h' : t.Leads channel schedule' s')
    (hevaluated : s'.progress.evaluated = s.progress.evaluated) :
    (t.begunBetween s s').length ≤ jobs t.settings + 1 := by
  have hnodup : (t.begunBetween s s').Nodup := List.nodup_range.filter _
  have hsub := (List.subperm_of_subset hnodup fun _ hrow =>
    mem_of_mem_begunBetween h h' hevaluated hrow).length_le
  rw [List.length_cons, List.length_map] at hsub
  exact Nat.le_trans hsub (Nat.add_le_add_right (invariant_of_leads h).length_waiting_le 1)

end
end Trial

/-- After a signal the sweep counts no other scenario. Those that it had counted are gone through
with every strategy; at most one for each job, and one that waits for a permit, had not begun. -/
theorem signal_holds_sweep (t : Trial) (channel : Option Channel) (schedule : List Event)
    (s : State) (h : t.Leads channel schedule s) (hsignal : s.Signalled) (rest : List Event)
    (s' : State) (hrun : t.execute s rest = some s') :
    s'.progress.evaluated = s.progress.evaluated ∧
    (∀ row, s.progress.evaluated ≤ row → t.hasBegun s' row = false) ∧
    (t.begunBetween s s').length ≤ jobs t.settings + 1 ∧
    (s'.isComplete = true →
      s'.progress.cancelled = decide (s.progress.evaluated < t.corpus.size) ∧
      s'.calls.Perm
        ((List.range (s.progress.evaluated * t.entrants.length)).filter t.isPresent) ∧
      s'.result t = .ok (t.outcome s.progress.evaluated)) := by
  have h' := h.append hrun
  have hheld : s'.Held s.progress.evaluated := Trial.execute_induction
    (fun _ _ _ _ => Trial.held_move) hrun ⟨rfl, Or.inr hsignal⟩
  refine ⟨hheld.1, fun row hrow => ?_, Trial.length_begunBetween_le h h' hheld.1,
    fun hcomplete => ⟨?_, ?_, ?_⟩⟩
  · rw [Bool.eq_false_iff]
    intro hbegun
    have hlt := Trial.lt_evaluated_of_hasBegun h' hbegun
    rw [hheld.1] at hlt
    exact absurd hlt (Nat.not_lt.2 hrow)
  · rw [← hheld.1]
    exact ((Trial.invariant_of_leads h').placed_of_isComplete hcomplete).2
  · rw [← hheld.1]
    exact Trial.calls_perm_of_isComplete h' hcomplete
  · rw [← hheld.1]
    exact (Trial.invariant_of_leads h').result_eq hcomplete

def slowTrial : Trial where
  settings := ⟨100, 1, .separate, none⟩
  registered := [⟨"A", true, fun _ => ⟨50, some (.conflicts "x")⟩⟩]
  corpus := (Corpus.ofScenarios [⟨"S0", .conflict, "a", "b", "c", none, none⟩,
    ⟨"S1", .conflict, "a", "b", "c", none, none⟩,
    ⟨"S2", .conflict, "a", "b", "c", none, none⟩]).toOption.getD .empty

def signalled : List Event := [.advance, .advance, .advance, .advance, .start 0, .send]

def afterSignal : List Event :=
  [.wait 50, .finish 0, .advance, .start 1, .advance, .advance, .wait 50, .finish 1,
    .join 0, .join 1]

theorem exists_slowTrial_states : ∃ s s', slowTrial.Leads (some ⟨true, 0⟩) signalled s ∧
    s.Signalled ∧ s.progress.evaluated = 2 ∧ slowTrial.hasBegun s 1 = false ∧
    slowTrial.execute s afterSignal = some s' ∧ s'.isComplete = true ∧
    slowTrial.hasBegun s' 1 = true := by
  have hrun : (slowTrial.execute ⟨.checkpoint 0, 0, 1, [], [], .empty, some ⟨true, 0⟩⟩
      signalled).any (fun s => (s.channel == some ⟨true, 1⟩ && s.progress.evaluated == 2) &&
        (!slowTrial.hasBegun s 1 && (slowTrial.execute s afterSignal).any fun s' =>
          s'.isComplete && slowTrial.hasBegun s' 1)) = true := by decide
  obtain ⟨s, hsignalled, hs⟩ := (Option.any_eq_true ..).1 hrun
  simp only [Bool.and_eq_true, beq_iff_eq, Bool.not_eq_true'] at hs
  obtain ⟨⟨hchannel, hevaluated⟩, hbefore, hafter⟩ := hs
  obtain ⟨s', hrest, hs'⟩ := (Option.any_eq_true ..).1 hafter
  obtain ⟨hcomplete, hbegun⟩ := Bool.and_eq_true_iff.1 hs'
  exact ⟨s, s', ⟨_, rfl, hsignalled⟩, ⟨_, hchannel, Nat.one_pos⟩, hevaluated, hbefore, hrest,
    hcomplete, hbegun⟩

/-- The second scenario is gone through, though none of its invocations had begun before the
signal; the third one is not. -/
theorem slowTrial_signal_holds_sweep : ∃ s s',
    slowTrial.Leads (some ⟨true, 0⟩) signalled s ∧ s.Signalled ∧
    slowTrial.execute s afterSignal = some s' ∧ s'.isComplete = true ∧
    slowTrial.hasBegun s' 1 = true ∧ slowTrial.hasBegun s' 2 = false ∧
    s'.progress.cancelled = true ∧ s'.result slowTrial = .ok (slowTrial.outcome 2) := by
  obtain ⟨s, s', hleads, hsignal, hevaluated, -, hrest, hcomplete, hbegun⟩ :=
    exists_slowTrial_states
  obtain ⟨-, hlater, -, hresult⟩ := signal_holds_sweep slowTrial _ _ s hleads hsignal _ s' hrest
  obtain ⟨hcancelled, -, hresult⟩ := hresult hcomplete
  rw [hevaluated] at hlater hcancelled hresult
  exact ⟨s, s', hleads, hsignal, hrest, hcomplete, hbegun, hlater 2 (Nat.le_refl 2),
    hcancelled.trans (by decide), hresult⟩

theorem signal_overtaken : ¬∀ (t : Trial) (channel : Option Channel) (schedule rest : List Event)
    (s s' : State), t.Leads channel schedule s → s.Signalled → t.execute s rest = some s' →
      ∀ row, t.hasBegun s row = false → t.hasBegun s' row = false := by
  intro h
  obtain ⟨s, s', hleads, hsignal, -, hbefore, hrest, -, hbegun⟩ := exists_slowTrial_states
  have hnot := h slowTrial _ _ _ s s' hleads hsignal hrest 1 hbefore
  exact Bool.false_ne_true (hnot.symm.trans hbegun)

end MergeTrial.Pass
