import Mathlib.Data.List.Induction
import Mathlib.Order.Bounds.Basic
import MergeTrial.Proofs.Pass.Signal

/-! Where a pass is cut off. The sweep looks for a signal once before each scenario, and stops at the
first look by which one has been sent; how many there were by then does not matter, nor whether more
can come. -/

namespace MergeTrial.Pass

/-- How many signals have been sent by the end of a schedule, those before the pass included. -/
def sentBy (channel : Option Channel) (schedule : List Event) : Nat :=
  (channel.map Channel.pending).getD 0 + schedule.count .send

/-- In the course of a schedule, right after this first part of it, the sweep looks for a signal
before it goes on to the scenario in this row. -/
structure Trial.LooksAfter (t : Trial) (channel : Option Channel) (schedule before : List Event)
    (row : Nat) : Prop where
  happens : before ++ [.advance] <+: schedule
  row_lt : row < t.corpus.size
  reaches : ∃ s, t.Leads channel before s ∧ s.sweep = .checkpoint row

/-- By the look before the scenario in this row a signal has been sent. -/
def Trial.SignalledAt (t : Trial) (channel : Option Channel) (schedule : List Event) (row : Nat) :
    Prop := ∃ before, t.LooksAfter channel schedule before row ∧ 0 < sentBy channel before

/-- The evaluation stops short of the first scenario by whose look a signal had been sent, or goes
through the corpus. It has everything about the scenarios before, and nothing about others. -/
structure CutOff (t : Trial) (channel : Option Channel) (schedule : List Event) (e : Evaluation) :
    Prop where
  evaluated : IsLeast (insert t.corpus.size {row | t.SignalledAt channel schedule row}) e.evaluated
  looks : ∀ row, (∃! before, t.LooksAfter channel schedule before row) ↔
    row < t.corpus.size ∧ row ≤ e.evaluated
  cancelled : e.cancelled = true ↔ e.evaluated < t.corpus.size
  -- that no more signals can come is not a reason to stop
  unsent : sentBy channel schedule = 0 → e.cancelled = false
  runs : ∀ row scenario, t.corpus.scenarios[row]? = some scenario →
    (e.runs.filter fun run => run.scenario == scenario.name).map (·.strategy) =
      if row < e.evaluated then t.names else []
  classifications : ∀ row scenario, t.corpus.scenarios[row]? = some scenario →
    (e.classifications.filter fun c => c.scenario == scenario.name).map (·.strategy) =
      if row < e.evaluated then t.names else []

theorem receive_stops_iff {channel : Channel} :
    channel.receive.1.stops = true ↔ 0 < channel.pending := by
  constructor
  · intro hstops
    by_contra hnone
    rw [(Trial.receive_of_not_pending (Nat.eq_zero_of_not_pos hnone)).1] at hstops
    exact Bool.false_ne_true hstops
  · exact Trial.stops_of_pending

theorem sentBy_concat_of_ne {channel : Option Channel} {schedule : List Event} {event : Event}
    (h : event ≠ .send) : sentBy channel (schedule ++ [event]) = sentBy channel schedule := by
  rw [sentBy, List.count_append, List.count_singleton, if_neg (by simpa using h), Nat.add_zero,
    sentBy]

theorem sentBy_concat_send {channel : Option Channel} {schedule : List Event} :
    sentBy channel (schedule ++ [.send]) = sentBy channel schedule + 1 := by
  rw [sentBy, List.count_append, List.count_singleton_self, ← Nat.add_assoc, sentBy]

namespace Trial
variable {t : Trial} {channel : Option Channel} {schedule before : List Event} {s s' : State}
  {event : Event} {row : Nat}

theorem leads_concat_iff : t.Leads channel (schedule ++ [event]) s' ↔
    ∃ s, t.Leads channel schedule s ∧ t.step s event = some s' := by
  constructor
  · rintro ⟨first, hbegin, hrun⟩
    rw [execute_append] at hrun
    obtain ⟨s, hs, hstep⟩ := Option.bind_eq_some_iff.1 hrun
    rw [execute_cons] at hstep
    obtain ⟨next, hnext, hnil⟩ := Option.bind_eq_some_iff.1 hstep
    exact ⟨s, ⟨first, hbegin, hs⟩, Option.some.inj hnil ▸ hnext⟩
  · rintro ⟨s, h, hstep⟩
    exact h.append (by rw [execute_cons, hstep]; rfl)

theorem Leads.unique (h : t.Leads channel schedule s) (h' : t.Leads channel schedule s') :
    s = s' := by
  obtain ⟨first, hbegin, hrun⟩ := h
  obtain ⟨first', hbegin', hrun'⟩ := h'
  obtain rfl := Except.ok.inj (hbegin.symm.trans hbegin')
  exact Option.some.inj (hrun.symm.trans hrun')

theorem Leads.induction {motive : List Event → State → Prop}
    (hbegin : ∀ s, t.begin channel = .ok s → motive [] s)
    (hmove : ∀ schedule s event s', t.Leads channel schedule s → t.Move s event s' →
      motive schedule s → motive (schedule ++ [event]) s')
    (h : t.Leads channel schedule s) : motive schedule s := by
  induction schedule using List.reverseRecOn generalizing s with
  | nil =>
    obtain ⟨first, hfirst, hrun⟩ := h
    exact Option.some.inj hrun ▸ hbegin first hfirst
  | append_singleton schedule event ih =>
    obtain ⟨s, hs, hstep⟩ := leads_concat_iff.1 h
    exact hmove schedule _ event _ hs (move_of_step hstep) (ih hs)

theorem looksAfter_concat_iff (h : t.Leads channel schedule s) :
    t.LooksAfter channel (schedule ++ [event]) before row ↔
      t.LooksAfter channel schedule before row ∨
        event = .advance ∧ before = schedule ∧ row < t.corpus.size ∧ s.sweep = .checkpoint row := by
  constructor
  · rintro ⟨hpart, hrow, s', hs', hsweep⟩
    rcases List.prefix_concat_iff.1 hpart with heq | hpart
    · obtain ⟨rfl, hevent⟩ := List.append_inj' heq rfl
      obtain rfl := h.unique hs'
      exact Or.inr ⟨(List.cons.inj hevent).1.symm, rfl, hrow, hsweep⟩
    · exact Or.inl ⟨hpart, hrow, s', hs', hsweep⟩
  · rintro (⟨hpart, hrow, hreaches⟩ | ⟨rfl, rfl, hrow, hsweep⟩)
    · exact ⟨hpart.trans (List.prefix_append _ _), hrow, hreaches⟩
    · exact ⟨List.prefix_rfl, hrow, s, h, hsweep⟩

theorem looksAfter_advance_iff (h : t.Leads channel schedule s) (hsweep : s.sweep = .checkpoint row)
    (hrow : row < t.corpus.size) (before : List Event) (other : Nat) :
    t.LooksAfter channel (schedule ++ [.advance]) before other ↔
      t.LooksAfter channel schedule before other ∨ before = schedule ∧ other = row := by
  rw [looksAfter_concat_iff h]
  refine or_congr_right ⟨?_, ?_⟩
  · rintro ⟨-, hbefore, -, hother⟩
    exact ⟨hbefore, (Sweep.checkpoint.inj (hsweep.symm.trans hother)).symm⟩
  · rintro ⟨hbefore, rfl⟩
    exact ⟨rfl, hbefore, hrow, hsweep⟩

/-- What the looks of a schedule have come to: one before each scenario that was counted, none of
them with a signal sent by then, and another one where the pass was stopped. -/
structure Watch (t : Trial) (channel : Option Channel) (schedule : List Event) (s : State) :
    Prop where
  pending : s.progress.cancelled = false →
    (s.channel.map Channel.pending).getD 0 = sentBy channel schedule
  looked : ∀ row, (∃ before, t.LooksAfter channel schedule before row) ↔
    row < s.progress.evaluated ∨ row = s.progress.evaluated ∧ s.progress.cancelled = true
  unsignalled : ∀ row before, t.LooksAfter channel schedule before row →
    row < s.progress.evaluated → sentBy channel before = 0
  signalled : s.progress.cancelled = true → ∀ before,
    t.LooksAfter channel schedule before s.progress.evaluated → 0 < sentBy channel before

theorem Watch.keep (h : t.Watch channel schedule s) (hleads : t.Leads channel schedule s)
    (hlook : event = .advance → ∀ row, s.sweep = .checkpoint row → t.corpus.size ≤ row)
    (hevaluated : s'.progress.evaluated = s.progress.evaluated)
    (hcancelled : s'.progress.cancelled = s.progress.cancelled)
    (hpending : (s.channel.map Channel.pending).getD 0 = sentBy channel schedule →
      (s'.channel.map Channel.pending).getD 0 = sentBy channel (schedule ++ [event])) :
    t.Watch channel (schedule ++ [event]) s' := by
  have hsame : ∀ before row, t.LooksAfter channel (schedule ++ [event]) before row ↔
      t.LooksAfter channel schedule before row := by
    intro before row
    rw [looksAfter_concat_iff hleads, or_iff_left]
    rintro ⟨hevent, -, hrow, hsweep⟩
    exact Nat.not_le_of_lt hrow (hlook hevent row hsweep)
  constructor <;> simp only [hsame, hevaluated, hcancelled]
  · exact fun hgoes => hpending (h.pending hgoes)
  · exact h.looked
  · exact h.unsignalled
  · exact h.signalled

theorem Watch.at_checkpoint (h : t.Watch channel schedule s) (hleads : t.Leads channel schedule s)
    (hsweep : s.sweep = .checkpoint row) :
    s.progress.evaluated = row ∧ s.progress.cancelled = false ∧
      ∀ other, (∃ before, t.LooksAfter channel schedule before other) ↔ other < row := by
  obtain ⟨rfl, -, hgoes⟩ : s.progress.evaluated = row ∧ row ≤ t.corpus.size ∧
      s.progress.cancelled = false := by
    simpa only [Placed, hsweep] using (invariant_of_leads hleads).placed
  exact ⟨rfl, hgoes, by simpa [hgoes] using h.looked⟩

theorem Watch.stop (h : t.Watch channel schedule s) (hleads : t.Leads channel schedule s)
    (hsweep : s.sweep = .checkpoint row) (hrow : row < t.corpus.size)
    (hsignal : 0 < (s.channel.map Channel.pending).getD 0)
    (hevaluated : s'.progress.evaluated = s.progress.evaluated)
    (hcancelled : s'.progress.cancelled = true) : t.Watch channel (schedule ++ [.advance]) s' := by
  obtain ⟨rfl, hgoes, hold⟩ := h.at_checkpoint hleads hsweep
  have hlooks := looksAfter_advance_iff hleads hsweep hrow
  have hsent : 0 < sentBy channel schedule := h.pending hgoes ▸ hsignal
  constructor <;> simp only [hlooks, hevaluated, hcancelled]
  · nofun
  · intro other
    rw [exists_or, hold, exists_eq_left, and_true]
  · rintro other before (hlook | ⟨-, rfl⟩) hlt
    · exact h.unsignalled other before hlook hlt
    · exact absurd hlt (Nat.lt_irrefl _)
  · rintro - before (hlook | ⟨rfl, -⟩)
    · exact absurd ((hold _).1 ⟨before, hlook⟩) (Nat.lt_irrefl _)
    · exact hsent

theorem Watch.pass (h : t.Watch channel schedule s) (hleads : t.Leads channel schedule s)
    (hsweep : s.sweep = .checkpoint row) (hrow : row < t.corpus.size)
    (hnone : (s.channel.map Channel.pending).getD 0 = 0) (hchannel : s'.channel = s.channel)
    (hevaluated : s'.progress.evaluated = s.progress.evaluated + 1)
    (hcancelled : s'.progress.cancelled = s.progress.cancelled) :
    t.Watch channel (schedule ++ [.advance]) s' := by
  obtain ⟨rfl, hgoes, hold⟩ := h.at_checkpoint hleads hsweep
  have hlooks := looksAfter_advance_iff hleads hsweep hrow
  have hunsent : sentBy channel schedule = 0 := (h.pending hgoes).symm.trans hnone
  have hkept : sentBy channel (schedule ++ [.advance]) = sentBy channel schedule :=
    sentBy_concat_of_ne nofun
  constructor <;> simp only [hlooks, hevaluated, hcancelled, hgoes, hchannel]
  · exact fun _ => hkept ▸ h.pending hgoes
  · intro other
    rw [exists_or, hold, exists_eq_left, Nat.lt_succ_iff_lt_or_eq]
    simp
  · rintro other before (hlook | ⟨rfl, rfl⟩) -
    · exact h.unsignalled other before hlook ((hold other).1 ⟨before, hlook⟩)
    · exact hunsent
  · nofun

theorem Watch.move (h : t.Watch channel schedule s) (hleads : t.Leads channel schedule s)
    (hmove : t.Move s event s') : t.Watch channel (schedule ++ [event]) s' := by
  have hquiet : ∀ {event}, event ≠ .send → (s.channel.map Channel.pending).getD 0 =
      sentBy channel schedule → (s.channel.map Channel.pending).getD 0 =
      sentBy channel (schedule ++ [event]) :=
    fun hevent hpending => hpending.trans (sentBy_concat_of_ne hevent).symm
  cases hmove with
  | stops row c hsweep hrow hchannel hstops =>
    refine h.stop hleads hsweep hrow ?_ rfl rfl
    rw [hchannel]
    exact receive_stops_iff.1 hstops
  | passes row hsweep hrow hgoes =>
    have hnone : ∀ c, s.channel = some c → c.pending = 0 := fun c hc =>
      Nat.eq_zero_of_not_pos fun hpending =>
        Bool.false_ne_true ((hgoes c hc).symm.trans (receive_stops_iff.2 hpending))
    refine h.pass hleads hsweep hrow ?_ ?_ rfl rfl
    · cases hchannel : s.channel with
      | none => rfl
      | some c => exact hnone c hchannel
    · cases hchannel : s.channel with
      | none => rfl
      | some c => exact congrArg some (receive_of_not_pending (hnone c hchannel)).2
  | sweepEnds row hsweep hrow =>
    refine h.keep hleads (fun _ other hother => ?_) rfl rfl (hquiet nofun)
    obtain rfl := Sweep.checkpoint.inj (hsweep.symm.trans hother)
    exact hrow
  | rowEnds row column hsweep hend =>
    exact h.keep hleads (fun _ _ hother => nomatch hsweep.symm.trans hother) rfl rfl (hquiet nofun)
  | skips row column scenario entrant hsweep =>
    exact h.keep hleads (fun _ _ hother => nomatch hsweep.symm.trans hother) rfl rfl (hquiet nofun)
  | spawns row column scenario entrant hsweep =>
    exact h.keep hleads (fun _ _ hother => nomatch hsweep.symm.trans hother) rfl rfl (hquiet nofun)
  | joins task rest run =>
    exact h.keep hleads nofun (Progress.evaluated_join ..) (Progress.cancelled_join ..)
      (hquiet nofun)
  | sends c hchannel =>
    refine h.keep hleads nofun rfl rfl fun hpending => ?_
    rw [hchannel] at hpending
    rw [sentBy_concat_send, ← hpending]
    rfl
  | closes =>
    refine h.keep hleads nofun rfl rfl fun hpending => ?_
    refine Eq.trans ?_ (hquiet nofun hpending)
    rw [Option.map_map]
    rfl
  | starts | finishes | waits => exact h.keep hleads nofun rfl rfl (hquiet nofun)

theorem watch_of_leads (h : t.Leads channel schedule s) : t.Watch channel schedule s := by
  refine Leads.induction (fun first hbegin => ?_) (fun _ _ _ _ hleads hmove hwatch =>
    hwatch.move hleads hmove) h
  obtain ⟨-, rfl⟩ := begin_eq_ok hbegin
  have hnone : ∀ before row, ¬t.LooksAfter channel [] before row := fun before row hlook =>
    List.append_ne_nil_of_right_ne_nil _ (List.cons_ne_nil _ _) (List.prefix_nil.1 hlook.happens)
  constructor
  · exact fun _ => rfl
  · simp [hnone, Progress.empty]
  · exact fun row before hlook => absurd hlook (hnone before row)
  · exact fun _ before hlook => absurd hlook (hnone before _)

theorem LooksAfter.unique {other : List Event} (h : t.LooksAfter channel schedule before row)
    (h' : t.LooksAfter channel schedule other row) : before = other := by
  wlog hle : before ++ [.advance] <+: other ++ [.advance] generalizing before other
  · exact (this h' h ((List.prefix_or_prefix_of_prefix h.happens h'.happens).resolve_left hle)).symm
  rcases List.prefix_concat_iff.1 hle with heq | hpart
  · exact List.append_cancel_right heq
  · -- the later look is at a checkpoint beyond the one of the earlier look
    obtain ⟨s, hleads, hsweep⟩ := h'.reaches
    have hlooked := ((watch_of_leads hleads).at_checkpoint hleads hsweep).2.2 row
    exact absurd (hlooked.1 ⟨before, hpart, h.row_lt, h.reaches⟩) (Nat.lt_irrefl _)

theorem LooksAfter.sentBy_le (h : t.LooksAfter channel schedule before row) :
    sentBy channel before ≤ sentBy channel schedule := by
  have hpart : before <+: schedule := (List.prefix_append _ _).trans h.happens
  exact Nat.add_le_add_left (hpart.sublist.count_le _) _

theorem Watch.signalledAt_iff (h : t.Watch channel schedule s) :
    t.SignalledAt channel schedule row ↔
      row = s.progress.evaluated ∧ s.progress.cancelled = true := by
  constructor
  · rintro ⟨before, hlook, hsent⟩
    refine ((h.looked row).1 ⟨before, hlook⟩).resolve_left fun hlt => ?_
    exact absurd (h.unsignalled row before hlook hlt) (Nat.ne_of_gt hsent)
  · rintro ⟨rfl, hcancelled⟩
    obtain ⟨before, hlook⟩ := (h.looked _).2 (Or.inr ⟨rfl, hcancelled⟩)
    exact ⟨before, hlook, h.signalled hcancelled before hlook⟩

theorem mem_take_names_iff {scenario : Scenario} (h : t.corpus.scenarios[row]? = some scenario)
    (k : Nat) : scenario.name ∈ t.corpus.names.take k ↔ row < k := by
  have hname : t.corpus.names[row]? = some scenario.name := by
    rw [Corpus.names, List.getElem?_map, h, Option.map_some]
  obtain ⟨hrow, hget⟩ := List.getElem?_eq_some_iff.1 hname
  rw [List.mem_take_iff_idxOf_lt (hget ▸ List.getElem_mem hrow), ← hget,
    t.corpus.nodup_names.idxOf_getElem]

theorem cutOff_outcome (h : t.Leads channel schedule s) (hcomplete : s.isComplete = true) :
    CutOff t channel schedule (t.outcome s.progress.evaluated) := by
  have hwatch := watch_of_leads h
  obtain ⟨hle, hcancelled⟩ := (invariant_of_leads h).placed_of_isComplete hcomplete
  have hstopped : s.progress.cancelled = true ↔ s.progress.evaluated < t.corpus.size := by
    rw [hcancelled, decide_eq_true_iff]
  constructor
  · refine ⟨?_, ?_⟩
    · rcases Nat.eq_or_lt_of_le hle with hall | hlt
      · exact Or.inl hall
      · exact Or.inr (hwatch.signalledAt_iff.2 ⟨rfl, hstopped.2 hlt⟩)
    · rintro row (rfl | hrow)
      · exact hle
      · exact Nat.le_of_eq (hwatch.signalledAt_iff.1 hrow).1.symm
  · intro row
    have hlooked := hwatch.looked row
    rw [hstopped] at hlooked
    have hrows : row < s.progress.evaluated ∨
        row = s.progress.evaluated ∧ s.progress.evaluated < t.corpus.size ↔
        row < t.corpus.size ∧ row ≤ s.progress.evaluated := by omega
    rw [outcome, ← hrows, ← hlooked]
    constructor
    · exact ExistsUnique.exists
    · rintro ⟨before, hlook⟩
      exact ⟨before, hlook, fun other hother => hother.unique hlook⟩
  · exact decide_eq_true_iff
  · intro hunsent
    refine (hcancelled.symm.trans (Bool.eq_false_iff.2 fun hcancelled => ?_))
    obtain ⟨before, hlook, hsent⟩ := hwatch.signalledAt_iff.2 ⟨rfl, hcancelled⟩
    exact absurd (Nat.lt_of_lt_of_le hsent hlook.sentBy_le) (Nat.not_lt.2 (Nat.le_of_eq hunsent))
  · intro row scenario hscenario
    rw [strategies_of_map_eq_plan t.corpus.nodup_names.take (t.map_runs_outcome _)]
    exact if_congr (mem_take_names_iff hscenario _) rfl rfl
  · intro row scenario hscenario
    rw [strategies_of_map_eq_plan t.corpus.nodup_names.take (t.map_classifications_outcome _)]
    exact if_congr (mem_take_names_iff hscenario _) rfl rfl

end Trial

/-- A pass is cut off before the first scenario by whose look a signal had been sent, and nothing
else about the signals matters: neither how many there were, nor when they were sent between two
looks, nor whether the sender is still there, nor how many jobs there are. -/
theorem pass_cut_off_at_first_signal (t : Trial) (channel : Option Channel) (schedule : List Event)
    (s : State) (h : t.Leads channel schedule s) (hcomplete : s.isComplete = true) :
    (∃ e, s.result t = .ok e ∧ CutOff t channel schedule e) ∧
    ∀ jobs channel' schedule' s',
      Trial.Leads { t with settings := { t.settings with jobs := jobs } } channel' schedule' s' →
      s'.isComplete = true →
      (∀ row, Trial.SignalledAt { t with settings := { t.settings with jobs := jobs } } channel'
        schedule' row ↔ t.SignalledAt channel schedule row) →
      s'.result { t with settings := { t.settings with jobs := jobs } } = s.result t := by
  have hcut := Trial.cutOff_outcome h hcomplete
  have hresult := (Trial.invariant_of_leads h).result_eq hcomplete
  refine ⟨⟨_, hresult, hcut⟩, fun jobs channel' schedule' s' h' hcomplete' hsignals => ?_⟩
  have hleast := (Trial.cutOff_outcome h' hcomplete').evaluated
  simp only [hsignals] at hleast
  have hevaluated : s'.progress.evaluated = s.progress.evaluated := hleast.unique hcut.evaluated
  rw [(Trial.invariant_of_leads h').result_eq hcomplete', hresult, hevaluated]
  rfl

def signalledTwice : List Event := signalled ++ [.send, .close] ++ afterSignal

theorem slowTrial_cut_off : ∃ s, slowTrial.Leads (some ⟨true, 0⟩) signalledTwice s ∧
    s.isComplete = true ∧ s.result slowTrial = .ok (slowTrial.outcome 2) ∧
    CutOff slowTrial (some ⟨true, 0⟩) signalledTwice (slowTrial.outcome 2) := by
  have hrun : (slowTrial.execute ⟨.checkpoint 0, 0, 1, [], [], .empty, some ⟨true, 0⟩⟩
      signalledTwice).any (fun s => s.isComplete && s.progress.evaluated == 2) = true := by decide
  obtain ⟨s, hleads, hs⟩ := Trial.exists_leads rfl hrun
  obtain ⟨hcomplete, hevaluated⟩ := Bool.and_eq_true_iff.1 hs
  obtain ⟨⟨e, he, hcut⟩, -⟩ := pass_cut_off_at_first_signal slowTrial _ _ s hleads hcomplete
  have hresult := (Trial.invariant_of_leads hleads).result_eq hcomplete
  rw [beq_iff_eq.1 hevaluated] at hresult
  obtain rfl := Except.ok.inj (hresult.symm.trans he)
  exact ⟨s, hleads, hcomplete, hresult, hcut⟩

end MergeTrial.Pass
