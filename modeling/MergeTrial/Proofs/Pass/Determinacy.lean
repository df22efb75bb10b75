import MergeTrial.Proofs.Pass.Sequential
import MergeTrial.Proofs.Pass.Termination

/-! What a pass produces does not depend on how it went: every complete pass produces what the plan
prescribes for the scenarios that it got to. -/

namespace MergeTrial.Pass

def State.Quiet (s : State) : Prop :=
  s.progress.cancelled = false ∧ ∀ channel, s.channel = some channel → channel.pending = 0

/-- The run is what comes of invoking the strategy on the scenario. -/
structure ComesOf (t : Trial) (scenario : Scenario) (entrant : Entrant Id) (run : Run) : Prop where
  scenario_eq : run.scenario = scenario.name
  strategy_eq : run.strategy = entrant.name
  skipped : entrant.available = false → run.status = .skipped ∧ run.output = ""
  failed : entrant.available = true →
    limit t.settings.timeout < (entrant.call scenario).delay ∨
      (entrant.call scenario).output = none → run.status = .failed
  answered : entrant.available = true →
    (entrant.call scenario).delay ≤ limit t.settings.timeout →
      ∀ output, (entrant.call scenario).output = some output →
        run = .ofOutput scenario entrant.name output

/-- The evaluation is the part of the plan that belongs to the first scenarios, with one run for
each pair and the verdict on each run beside it. -/
structure FollowsPlan (t : Trial) (e : Evaluation) : Prop where
  evaluated_le : e.evaluated ≤ t.corpus.size
  cancelled : e.cancelled = decide (e.evaluated < t.corpus.size)
  planned : e.runs.map (fun run => (run.scenario, run.strategy)) =
    plan (t.corpus.names.take e.evaluated) t.names
  nodup : (e.runs.map fun run => (run.scenario, run.strategy)).Nodup
  runs : e.runs = (t.pairs e.evaluated).map fun pair => t.runOf pair.1 pair.2
  classified : (t.pairs e.evaluated).map (fun pair =>
      Classification.ofRun t.settings.policy pair.1 (t.runOf pair.1 pair.2)) =
    e.classifications.map .ok
  unavailable : e.unavailable =
    (t.entrants.filter fun entrant => !entrant.available).map (·.name)

namespace Trial
variable {t : Trial} {s s' : State} {scenario : Scenario} {entrant : Entrant Id}

theorem map_runs_outcome (t : Trial) (k : Nat) :
    (t.outcome k).runs.map (fun run => (run.scenario, run.strategy)) =
      plan (t.corpus.names.take k) t.names := by
  rw [← map_pairs, outcome, List.map_map]
  exact List.map_congr_left fun pair _ => Prod.ext (scenario_runOf ..) (strategy_runOf ..)

theorem map_classifications_outcome (t : Trial) (k : Nat) :
    (t.outcome k).classifications.map (fun c => (c.scenario, c.strategy)) =
      plan (t.corpus.names.take k) t.names := by
  rw [← map_pairs, outcome, List.map_map]
  rfl

theorem nodup_plan_take (t : Trial) (k : Nat) :
    (plan (t.corpus.names.take k) t.names).Nodup :=
  nodup_plan ((List.take_sublist k _).nodup t.corpus.nodup_names) t.nodup_names

theorem followsPlan_outcome (t : Trial) {k : Nat} (hk : k ≤ t.corpus.size) :
    FollowsPlan t (t.outcome k) where
  evaluated_le := hk
  cancelled := rfl
  planned := t.map_runs_outcome k
  nodup := by
    rw [map_runs_outcome]
    exact t.nodup_plan_take k
  runs := rfl
  classified := by
    rw [outcome, List.map_map]
    exact List.map_congr_left fun pair _ => t.ofRun_runOf t.settings.policy pair.1 pair.2
  unavailable := rfl

theorem Invariant.result_eq (h : t.Invariant s) (hcomplete : s.isComplete = true) :
    s.result t = .ok (t.outcome s.progress.evaluated) := by
  obtain ⟨hle, hcancelled⟩ := h.placed_of_isComplete hcomplete
  exact (h.collects_of_isComplete hcomplete).assemble_eq hle rfl hcancelled

theorem Invariant.evaluated_eq (h : t.Invariant s) (hcomplete : s.isComplete = true)
    (hcancelled : s.progress.cancelled = false) : s.progress.evaluated = t.corpus.size := by
  obtain ⟨hle, hstopped⟩ := h.placed_of_isComplete hcomplete
  rw [hcancelled] at hstopped
  exact Nat.le_antisymm hle (Nat.le_of_not_lt (of_decide_eq_false hstopped.symm))

theorem Invariant.nodup_classifications (h : t.Invariant s) (hcomplete : s.isComplete = true)
    {e : Evaluation} (he : s.result t = .ok e) :
    (e.classifications.map fun c => (c.scenario, c.strategy)).Nodup := by
  rw [h.result_eq hcomplete] at he
  obtain rfl := Except.ok.inj he
  rw [map_classifications_outcome]
  exact t.nodup_plan_take _

theorem receive_of_not_pending {channel : Channel} (h : channel.pending = 0) :
    channel.receive.1.stops = false ∧ channel.receive.2 = channel := by
  rw [Channel.receive, h]
  cases channel.isOpen <;> exact ⟨rfl, rfl⟩

theorem quiet_move {event : Event} (hmove : t.Move s event s') (hevent : event ≠ .send)
    (h : s.Quiet) : s'.Quiet := by
  obtain ⟨hcancelled, hpending⟩ := h
  cases hmove with
  | stops row channel hsweep hrow hchannel hstops =>
    rw [(receive_of_not_pending (hpending channel hchannel)).1] at hstops
    exact absurd hstops Bool.false_ne_true
  | passes row hsweep hrow hgoes =>
    refine ⟨hcancelled, fun channel hchannel => ?_⟩
    obtain ⟨before, hbefore, rfl⟩ := Option.map_eq_some_iff.1 hchannel
    have hnone := hpending before hbefore
    exact (congrArg Channel.pending (receive_of_not_pending hnone).2).trans hnone
  | joins task rest run hover hperm hended =>
    exact ⟨(Progress.cancelled_join ..).trans hcancelled, hpending⟩
  | sends channel hchannel => exact absurd rfl hevent
  | closes =>
    refine ⟨hcancelled, fun channel hchannel => ?_⟩
    obtain ⟨before, hbefore, rfl⟩ := Option.map_eq_some_iff.1 hchannel
    exact hpending before hbefore
  | sweepEnds | rowEnds | skips | spawns | starts | finishes | waits => exact ⟨hcancelled, hpending⟩

theorem evaluated_of_quiet {channel : Option Channel} {schedule : List Event}
    (h : t.Leads channel schedule s) (hcomplete : s.isComplete = true)
    (hpending : ∀ c, channel = some c → c.pending = 0) (hschedule : Event.send ∉ schedule) :
    s.progress.evaluated = t.corpus.size := by
  have hinvariant := invariant_of_leads h
  obtain ⟨first, hbegin, hrun⟩ := h
  obtain ⟨-, rfl⟩ := begin_eq_ok hbegin
  have hquiet : s.Quiet := execute_induction
    (fun _ _ event hevent hmove => quiet_move hmove fun hsend => hschedule (hsend ▸ hevent))
    hrun ⟨rfl, hpending⟩
  exact hinvariant.evaluated_eq hcomplete hquiet.1

theorem comesOf_runOf (t : Trial) (scenario : Scenario) (entrant : Entrant Id) :
    ComesOf t scenario entrant (t.runOf scenario entrant) where
  scenario_eq := t.scenario_runOf scenario entrant
  strategy_eq := t.strategy_runOf scenario entrant
  skipped := fun hgone => by
    rw [runOf, if_neg (Bool.eq_false_iff.1 hgone)]
    exact ⟨rfl, rfl⟩
  failed := fun hthere hfails => by
    rw [runOf, if_pos hthere, settle, invoke]
    split
    · rfl
    · next hlate => rw [hfails.resolve_left hlate]; rfl
  answered := fun hthere hdelay output houtput => by
    rw [runOf, if_pos hthere, settle, invoke, if_neg (Nat.not_lt.2 hdelay), houtput]
    rfl

end Trial

/-- Every pass comes to an end under every order of events, and its runs are those of the plan: they
depend neither on the number of jobs nor on that order, and each on its own pair only. -/
theorem pass_follows_plan (t : Trial) (hjobs : jobs t.settings ≤ maxJobs)
    (channel : Option Channel) :
    (∃ first, t.begin channel = .ok first) ∧
    (∀ schedule s, t.Leads channel schedule s →
      schedule.countP Event.isInternal ≤ 4 * (t.corpus.size * (t.entrants.length + 2) + 1) ∧
      ∃ rest last, t.execute s rest = some last ∧ last.isComplete = true ∧
        rest.all (!·.isForeign) = true) ∧
    (∀ schedule s, t.Leads channel schedule s → s.isComplete = true →
      (∃ e, s.result t = .ok e ∧ e.evaluated = s.progress.evaluated ∧ FollowsPlan t e) ∧
      ((∀ c, channel = some c → c.pending = 0) → Event.send ∉ schedule →
        s.progress.evaluated = t.corpus.size ∧
        s.result t = evaluate (m := Id) t.settings false t.entrants t.corpus) ∧
      ∀ jobs channel' schedule' s',
        Trial.Leads { t with settings := { t.settings with jobs := jobs } } channel' schedule' s' →
        s'.isComplete = true → s'.progress.evaluated = s.progress.evaluated →
        s'.result { t with settings := { t.settings with jobs := jobs } } = s.result t) ∧
    ∀ scenario entrant, ComesOf t scenario entrant (t.runOf scenario entrant) := by
  refine ⟨⟨_, Trial.begin_of_le hjobs⟩, fun schedule s h => ⟨?_, ?_⟩,
    fun schedule s h hcomplete => ⟨?_, fun hpending hschedule => ?_, ?_⟩, t.comesOf_runOf⟩
  · obtain ⟨first, hbegin, hrun⟩ := h
    rw [← Trial.workLeft_begin hbegin]
    exact Nat.le_of_add_right_le (Trial.workLeft_execute hrun)
  · exact (Trial.invariant_of_leads h).exists_complete
  · have hinvariant := Trial.invariant_of_leads h
    exact ⟨_, hinvariant.result_eq hcomplete, rfl,
      t.followsPlan_outcome (hinvariant.placed_of_isComplete hcomplete).1⟩
  · have hevaluated := Trial.evaluated_of_quiet h hcomplete hpending hschedule
    refine ⟨hevaluated, ?_⟩
    rw [(Trial.invariant_of_leads h).result_eq hcomplete, hevaluated, evaluate_eq_outcome]
  · intro jobs channel' schedule' s' h' hcomplete' hevaluated
    rw [(Trial.invariant_of_leads h).result_eq hcomplete,
      (Trial.invariant_of_leads h').result_eq hcomplete', hevaluated]
    rfl

def mixedTrial : Trial where
  settings := ⟨100, 2, .separate, none⟩
  registered := [⟨"x", true, fun _ => ⟨0, some (.success "b")⟩⟩, ⟨"y", false, fun _ => ⟨0, none⟩⟩,
    ⟨"z", true, fun _ => ⟨0, none⟩⟩, ⟨"x", false, fun _ => ⟨0, none⟩⟩]
  corpus := (Corpus.ofScenarios [⟨"S2", .success, "a", "b", "c", some "b", none⟩,
    ⟨"S1", .conflict, "a", "b", "c", none, none⟩]).toOption.getD .empty

def reversingSchedule : List Event :=
  [.advance, .advance, .advance, .advance, .start 2, .finish 2, .start 0, .finish 0] ++
    List.replicate 7 .advance ++
    [.start 3, .start 5, .finish 5, .finish 3, .join 3, .join 5, .join 2, .join 0]

theorem mixedTrial_follows_plan : jobs mixedTrial.settings ≤ maxJobs ∧
    ∃ s e, mixedTrial.Leads none reversingSchedule s ∧ s.isComplete = true ∧
      s.result mixedTrial = .ok e ∧ FollowsPlan mixedTrial e ∧
      s.result mixedTrial =
        evaluate (m := Id) mixedTrial.settings false mixedTrial.entrants mixedTrial.corpus := by
  have hjobs : jobs mixedTrial.settings ≤ maxJobs := by decide
  obtain ⟨-, -, hruns, -⟩ := pass_follows_plan mixedTrial hjobs none
  have hdone : (mixedTrial.execute ⟨.checkpoint 0, 0, 2, [], [], .empty, none⟩
      reversingSchedule).any State.isComplete = true := by decide
  obtain ⟨s, hrun, hcomplete⟩ := (Option.any_eq_true ..).1 hdone
  have hleads : mixedTrial.Leads none reversingSchedule s := ⟨_, rfl, hrun⟩
  obtain ⟨⟨e, hresult, -, hfollows⟩, hquiet, -⟩ := hruns reversingSchedule s hleads hcomplete
  exact ⟨hjobs, s, e, hleads, hcomplete, hresult, hfollows,
    (hquiet (fun _ h => nomatch h) (by decide)).2⟩

end MergeTrial.Pass
