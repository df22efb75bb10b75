import MergeTrial.Pass.Sweep
import MergeTrial.Proofs.Pass.Assembly

/-! A sweep that carries out one invocation after the other collects the same cells, however far it
is ahead of them, and so produces what the plan prescribes. -/

namespace MergeTrial.Pass
variable {t : Trial} {row reached cell : Nat} {scenario : Scenario} {entrant : Entrant Id}
  {lead : Lead Id}

structure Due.IsOf (t : Trial) (due : Due Id) : Prop where
  pair : t.pair? due.cell = some (due.scenario, due.entrant)
  available : due.entrant.available = true

structure Lead.Collects (t : Trial) (reached : Nat) (lead : Lead Id) : Prop where
  collects : lead.progress.Collects t reached (lead.due.map Due.cell)
  due : ∀ due ∈ lead.due, due.IsOf t

structure Lead.Counts (evaluated : Nat) (lead : Lead Id) : Prop where
  evaluated : lead.progress.evaluated = evaluated
  cancelled : lead.progress.cancelled = false

namespace Lead

theorem carryOutAll_collects {dues : List (Due Id)} {p : Progress}
    (h : p.Collects t reached (dues.map Due.cell)) (hdues : ∀ due ∈ dues, due.IsOf t) :
    Progress.Collects t reached [] (carryOutAll (m := Id) t.settings.timeout dues p) := by
  induction dues generalizing p with
  | nil => exact h
  | cons due rest ih =>
    have hdue := hdues due List.mem_cons_self
    have hjoined := h.join hdue.pair
    rw [Trial.yield, if_pos hdue.available] at hjoined
    exact ih hjoined fun other hother => hdues other (List.mem_cons_of_mem _ hother)

theorem carryOutAll_counts (timeout : Nat) (dues : List (Due Id)) (p : Progress) :
    (carryOutAll (m := Id) timeout dues p).evaluated = p.evaluated ∧
      (carryOutAll (m := Id) timeout dues p).cancelled = p.cancelled := by
  induction dues generalizing p with
  | nil => exact ⟨rfl, rfl⟩
  | cons due rest ih =>
    obtain ⟨hevaluated, hcancelled⟩ := ih (p.join due.cell
      ((invoke timeout (due.entrant.call due.scenario)).map
        (.ofOutput due.scenario due.entrant.name)))
    exact ⟨hevaluated.trans (Progress.evaluated_join ..),
      hcancelled.trans (Progress.cancelled_join ..)⟩

theorem Collects.catchUp (h : lead.Collects t reached) :
    Lead.Collects t reached (Lead.catchUp (m := Id) t.settings.timeout lead) :=
  ⟨carryOutAll_collects h.collects h.due, fun _ hdue => absurd hdue List.not_mem_nil⟩

theorem Counts.catchUp {evaluated : Nat} (h : lead.Counts evaluated) (timeout : Nat) :
    Lead.Counts evaluated (Lead.catchUp (m := Id) timeout lead) := by
  obtain ⟨hevaluated, hcancelled⟩ := carryOutAll_counts timeout lead.due lead.progress
  exact ⟨hevaluated.trans h.evaluated, hcancelled.trans h.cancelled⟩

theorem Collects.acquire (h : lead.Collects t reached) :
    Lead.Collects t reached (Lead.acquire (m := Id) t.settings lead) := by
  unfold Lead.acquire
  split
  · exact h
  · exact h.catchUp

theorem Counts.acquire {evaluated : Nat} (h : lead.Counts evaluated) (settings : PassSettings) :
    Lead.Counts evaluated (Lead.acquire (m := Id) settings lead) := by
  unfold Lead.acquire
  split
  · exact h
  · exact h.catchUp settings.timeout

theorem Collects.takeUp (h : lead.Collects t cell)
    (hpair : t.pair? cell = some (scenario, entrant)) :
    Lead.Collects t (cell + 1) (Lead.takeUp (m := Id) t.settings (unavailable t.entrants) scenario
      cell entrant lead) := by
  have hmem : entrant ∈ t.entrants := List.mem_of_getElem? (Trial.pair?_eq_some_iff.1 hpair).2
  have hgone := mem_unavailable t.nodup_names hmem
  unfold Lead.takeUp
  split
  · next habsent => exact ⟨h.collects.skip hpair (hgone.1 habsent), h.due⟩
  · next hpresent =>
    have hthere : entrant.available = true :=
      Bool.not_eq_false _ ▸ fun hfalse => hpresent (hgone.2 hfalse)
    have hacquired := h.acquire
    have hspawned := hacquired.collects.spawn hpair hthere
    refine ⟨?_, fun due hdue => ?_⟩
    · rwa [← List.map_singleton (f := Due.cell) (a := ⟨cell, scenario, entrant⟩),
        ← List.map_append] at hspawned
    · rcases List.mem_append.1 hdue with hdue | hdue
      · exact hacquired.due due hdue
      · obtain rfl := List.mem_singleton.1 hdue
        exact ⟨hpair, hthere⟩

theorem Counts.takeUp {evaluated : Nat} (h : lead.Counts evaluated) (settings : PassSettings)
    (absent : NameSet) (scenario : Scenario) (cell : Nat) (entrant : Entrant Id) :
    Lead.Counts evaluated (Lead.takeUp (m := Id) settings absent scenario cell entrant lead) := by
  unfold Lead.takeUp
  split
  · exact ⟨h.evaluated, h.cancelled⟩
  · exact ⟨(h.acquire settings).evaluated, (h.acquire settings).cancelled⟩

theorem Counts.sweepRow {evaluated : Nat} (h : lead.Counts evaluated) (settings : PassSettings)
    (absent : NameSet) (scenario : Scenario) (entrants : List (Entrant Id)) (cell : Nat) :
    Lead.Counts evaluated
      (Lead.sweepRow (m := Id) settings absent scenario cell entrants lead) := by
  induction entrants generalizing cell lead with
  | nil => exact h
  | cons entrant rest ih => exact ih (h.takeUp settings absent scenario cell entrant) (cell + 1)

theorem Collects.sweepRow (hscenario : t.corpus.scenarios[row]? = some scenario)
    {entrants : List (Entrant Id)} {column : Nat} (hrest : t.entrants.drop column = entrants)
    (h : lead.Collects t (row * t.entrants.length + column)) :
    Lead.Collects t (row * t.entrants.length + (column + entrants.length))
      (Lead.sweepRow (m := Id) t.settings (unavailable t.entrants) scenario
        (row * t.entrants.length + column) entrants lead) := by
  induction entrants generalizing column lead with
  | nil => exact h
  | cons entrant rest ih =>
    have hcolumn : column < t.entrants.length := by
      by_contra hlong
      rw [List.drop_eq_nil_of_le (Nat.le_of_not_lt hlong)] at hrest
      exact absurd hrest (List.cons_ne_nil _ _).symm
    rw [List.drop_eq_getElem_cons hcolumn] at hrest
    obtain ⟨rfl, htail⟩ := List.cons.inj hrest
    have hpair : t.pair? (row * t.entrants.length + column) =
        some (scenario, t.entrants[column]) := by
      rw [Trial.pair?_cell t hcolumn, hscenario, List.getElem?_eq_getElem hcolumn]
      rfl
    have hlength : column + (rest.length + 1) = column + 1 + rest.length := by omega
    rw [List.length_cons, hlength]
    exact ih htail (h.takeUp hpair)

theorem Collects.sweep {scenarios : List Scenario}
    (hrest : t.corpus.scenarios.drop row = scenarios)
    (h : lead.Collects t (row * t.entrants.length)) (hcounts : lead.Counts row) :
    let last := Lead.sweep (m := Id) t.settings false t.entrants row scenarios lead
    last.Collects t ((row + scenarios.length) * t.entrants.length) ∧
      last.Counts (row + scenarios.length) := by
  induction scenarios generalizing row lead with
  | nil => exact ⟨h, hcounts⟩
  | cons scenario rest ih =>
    have hrow : row < t.corpus.scenarios.length := by
      by_contra hlong
      rw [List.drop_eq_nil_of_le (Nat.le_of_not_lt hlong)] at hrest
      exact absurd hrest (List.cons_ne_nil _ _).symm
    rw [List.drop_eq_getElem_cons hrow] at hrest
    obtain ⟨rfl, htail⟩ := List.cons.inj hrest
    have hcounted : lead.count.Collects t (row * t.entrants.length + 0) :=
      ⟨h.collects.of_eq rfl rfl, h.due⟩
    have hdone := hcounted.sweepRow (List.getElem?_eq_getElem hrow) List.drop_zero
    rw [Nat.zero_add, ← Nat.succ_mul] at hdone
    have hone : lead.count.Counts (row + 1) :=
      ⟨congrArg Nat.succ hcounts.evaluated, hcounts.cancelled⟩
    have hlength : row + (rest.length + 1) = row + 1 + rest.length := by omega
    rw [List.length_cons, hlength]
    exact ih htail hdone (hone.sweepRow ..)

end Lead

theorem evaluate_eq_outcome (t : Trial) :
    evaluate (m := Id) t.settings false t.entrants t.corpus = .ok (t.outcome t.corpus.size) := by
  have hempty : Lead.Collects t (0 * t.entrants.length) Lead.empty := by
    rw [Nat.zero_mul]
    exact ⟨Progress.Collects.empty t, fun _ hdue => absurd hdue List.not_mem_nil⟩
  obtain ⟨hcollects, hcounts⟩ := hempty.sweep List.drop_zero ⟨rfl, rfl⟩
  rw [Nat.zero_add] at hcollects hcounts
  have hcaught := hcounts.catchUp t.settings.timeout
  refine hcollects.catchUp.collects.assemble_eq (Nat.le_refl _) hcaught.evaluated ?_
  rw [hcaught.cancelled]
  exact (decide_eq_false (Nat.lt_irrefl _)).symm

end MergeTrial.Pass
