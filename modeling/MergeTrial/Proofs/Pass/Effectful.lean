import Mathlib
import MergeTrial.Pass.Sweep
import MergeTrial.Proofs.Pass.Determinacy

/-! Sweeps whose invocations have effects. An answer may then depend on all that happened before;
but each cell is answered at most once, so the sweep produces what it would if a table gave the
answers, and that is what the plan prescribes. Statements about results are made by `SatisfiesM`, for
which all of Mathlib is imported: no smaller part of it has that. -/

namespace MergeTrial.Pass
variable {n : Type → Type} {settings : PassSettings} {corpus : Corpus} {entrants : List (Entrant n)}
  {replies : String × String → Reply} {reply : Reply} {scenario : Scenario} {entrant : Entrant n}
  {reached cell row : Nat} {underWay : List Nat} {p : Progress}

theorem distinctAfter_eq_self {α : Type} {name : α → String} {xs : List α} {seen : NameSet}
    (h : (xs.map name).Nodup) (hseen : ∀ x ∈ xs, ¬name x ∈ seen) :
    distinctAfter name seen xs = xs := by
  induction xs generalizing seen with
  | nil => rfl
  | cons x rest ih =>
    obtain ⟨hx, hrest⟩ := List.nodup_cons.1 h
    rw [distinctAfter, if_neg (hseen x List.mem_cons_self)]
    refine congrArg (x :: ·) (ih hrest fun y hy hmem => ?_)
    rcases NameSet.mem_insert.1 hmem with heq | hmem
    · exact hx (heq ▸ List.mem_map_of_mem hy)
    · exact hseen y (List.mem_cons_of_mem x hy) hmem

theorem map_distinctAfter {α : Type} (name : α → String) (seen : NameSet) (xs : List α) :
    (distinctAfter name seen xs).map name = distinctAfter id seen (xs.map name) := by
  induction xs generalizing seen with
  | nil => rfl
  | cons x rest ih =>
    rw [List.map_cons, distinctAfter, distinctAfter, id_eq]
    split
    · exact ih seen
    · exact congrArg (name x :: ·) (ih (seen.insert (name x)))

def Entrant.answering (replies : String × String → Reply) (entrant : Entrant n) : Entrant Id where
  name := entrant.name
  available := entrant.available
  call := fun scenario => replies (scenario.name, entrant.name)

def Trial.answering (settings : PassSettings) (corpus : Corpus) (entrants : List (Entrant n))
    (replies : String × String → Reply) : Trial :=
  ⟨settings, entrants.map (.answering replies), corpus⟩

structure IsCellOf (corpus : Corpus) (entrants : List (Entrant n)) (cell : Nat)
    (scenario : Scenario) (entrant : Entrant n) : Prop where
  scenario : corpus.scenarios[cell / entrants.length]? = some scenario
  entrant : entrants[cell % entrants.length]? = some entrant

theorem isCellOf_at {column : Nat} (hscenario : corpus.scenarios[row]? = some scenario)
    (hentrant : entrants[column]? = some entrant) :
    IsCellOf corpus entrants (row * entrants.length + column) scenario entrant := by
  have hcolumn : column < entrants.length := (List.getElem?_eq_some_iff.1 hentrant).1
  constructor
  · rwa [Trial.row_of_cell hcolumn]
  · rwa [Trial.column_of_cell hcolumn]

theorem IsCellOf.eq_of_names {other : Nat} {scenario' : Scenario} {entrant' : Entrant n}
    (hnodup : (entrants.map (·.name)).Nodup) (h : IsCellOf corpus entrants cell scenario entrant)
    (h' : IsCellOf corpus entrants other scenario' entrant')
    (hnames : (scenario.name, entrant.name) = (scenario'.name, entrant'.name)) : cell = other := by
  obtain ⟨hscenarios, hentrants⟩ := Prod.mk.inj hnames
  have hrow : cell / entrants.length = other / entrants.length := by
    have hlt := (List.getElem?_eq_some_iff.1 h.scenario).1
    refine (List.getElem?_inj (Nat.lt_of_lt_of_eq hlt (List.length_map _).symm)
      corpus.nodup_names).1 ?_
    rw [List.getElem?_map, List.getElem?_map, h.scenario, h'.scenario]
    exact congrArg some hscenarios
  have hcolumn : cell % entrants.length = other % entrants.length := by
    have hlt := (List.getElem?_eq_some_iff.1 h.entrant).1
    refine (List.getElem?_inj (Nat.lt_of_lt_of_eq hlt (List.length_map _).symm) hnodup).1 ?_
    rw [List.getElem?_map, List.getElem?_map, h.entrant, h'.entrant]
    exact congrArg some hentrants
  rw [← Nat.div_add_mod cell entrants.length, hrow, hcolumn, Nat.div_add_mod]

namespace Trial

section Answering
variable (hnodup : (entrants.map (·.name)).Nodup)
include hnodup

theorem entrants_answering : (answering settings corpus entrants replies).entrants =
    entrants.map (.answering replies) := by
  refine distinctAfter_eq_self ?_ fun _ _ => NameSet.not_mem_empty _
  rwa [answering, List.map_map]

theorem pair?_answering (cell : Nat) : (answering settings corpus entrants replies).pair? cell =
    corpus.scenarios[cell / entrants.length]?.bind fun scenario =>
      entrants[cell % entrants.length]?.map fun entrant =>
        (scenario, entrant.answering replies) := by
  rw [pair?, entrants_answering hnodup, List.length_map, List.getElem?_map]
  simp only [Option.map_map, Function.comp_def, answering]

theorem pair?_answering_eq_some_iff {paired : Scenario × Entrant Id} :
    (answering settings corpus entrants replies).pair? cell = some paired ↔
      ∃ scenario entrant, IsCellOf corpus entrants cell scenario entrant ∧
        (scenario, entrant.answering replies) = paired := by
  simp only [pair?_answering hnodup, Option.bind_eq_some_iff, Option.map_eq_some_iff]
  constructor
  · rintro ⟨scenario, hscenario, entrant, hentrant, rfl⟩
    exact ⟨scenario, entrant, ⟨hscenario, hentrant⟩, rfl⟩
  · rintro ⟨scenario, entrant, hcell, rfl⟩
    exact ⟨scenario, hcell.scenario, entrant, hcell.entrant, rfl⟩

theorem isPresent_answering (other : String × String → Reply) :
    (answering settings corpus entrants other).isPresent =
      (answering settings corpus entrants replies).isPresent := by
  funext cell
  rw [isPresent, isPresent, pair?_answering hnodup, pair?_answering hnodup]
  cases corpus.scenarios[cell / entrants.length]? with
  | none => rfl
  | some scenario => cases entrants[cell % entrants.length]? <;> rfl

end Answering

theorem yield_answering : (answering settings corpus entrants replies).yield scenario
      (entrant.answering replies) =
    if entrant.available then
      (invoke settings.timeout (replies (scenario.name, entrant.name))).map
        (.ofOutput scenario entrant.name)
    else some (.unavailable scenario entrant.name) := rfl

end Trial

def Trial.Leaves (t : Trial) (cell : Nat) (result : Option Run) : Prop :=
  ∃ scenario entrant, t.pair? cell = some (scenario, entrant) ∧ t.yield scenario entrant = result

section Answer
variable (hnodup : (entrants.map (·.name)).Nodup)
  (hcell : IsCellOf corpus entrants cell scenario entrant)
include hnodup hcell

theorem Trial.Leaves.answer {other : Nat} {result : Option Run} (reply : Reply)
    (h : (Trial.answering settings corpus entrants replies).Leaves other result)
    (hne : other ≠ cell) : (Trial.answering settings corpus entrants
      (Function.update replies (scenario.name, entrant.name) reply)).Leaves other result := by
  obtain ⟨_, _, hpair, rfl⟩ := h
  obtain ⟨paired, named, hother, heq⟩ := (pair?_answering_eq_some_iff hnodup).1 hpair
  obtain ⟨rfl, rfl⟩ := Prod.mk.inj heq
  refine ⟨paired, named.answering _,
    (pair?_answering_eq_some_iff hnodup).2 ⟨paired, named, hother, rfl⟩, ?_⟩
  have hnames : (paired.name, named.name) ≠ (scenario.name, entrant.name) := fun hsame =>
    hne (hother.eq_of_names hnodup hcell hsame)
  rw [yield_answering, yield_answering, Function.update_of_ne hnames]

theorem Progress.Collects.answer
    (h : p.Collects (.answering settings corpus entrants replies) reached (cell :: underWay))
    (reply : Reply) : p.Collects (.answering settings corpus entrants
        (Function.update replies (scenario.name, entrant.name) reply)) reached
      (cell :: underWay) := by
  obtain ⟨lost, hlost, hcells⟩ := h.cells
  have hmoved : (cell :: (p.finished.map Prod.fst ++ (underWay ++ lost))).Nodup :=
    List.perm_middle.nodup_iff.1 (hcells.nodup_iff.2 List.nodup_range)
  have hnot := (List.nodup_cons.1 hmoved).1
  constructor
  case finished =>
    intro entry hentry
    refine Trial.Leaves.answer hnodup hcell reply (h.finished entry hentry) ?_
    rintro rfl
    exact hnot (List.mem_append_left _ (List.mem_map_of_mem hentry))
  case spawned => rw [h.spawned, Trial.isPresent_answering hnodup]
  case cells =>
    refine ⟨lost, fun other hother => ?_, hcells⟩
    refine Trial.Leaves.answer hnodup hcell reply (hlost other hother) ?_
    rintro rfl
    exact hnot (List.mem_append_right _ (List.mem_append_right _ hother))

theorem Progress.Collects.join_answer (hthere : entrant.available = true)
    (h : p.Collects (.answering settings corpus entrants replies) reached (cell :: underWay))
    (reply : Reply) : (p.join cell ((invoke settings.timeout reply).map
        (.ofOutput scenario entrant.name))).Collects (.answering settings corpus entrants
      (Function.update replies (scenario.name, entrant.name) reply)) reached underWay := by
  have hjoined := (h.answer hnodup hcell reply).join
    ((Trial.pair?_answering_eq_some_iff hnodup).2 ⟨scenario, entrant, hcell, rfl⟩)
  rwa [Trial.yield_answering, if_pos hthere, Function.update_self] at hjoined

end Answer

structure Due.IsIn (corpus : Corpus) (entrants : List (Entrant n)) (due : Due n) : Prop where
  cell : IsCellOf corpus entrants due.cell due.scenario due.entrant
  available : due.entrant.available = true

/-- What a sweep has collected that is past the first `reached` cells and has got to so many
scenarios, if a table gives the answers. -/
structure Progress.Gathers (settings : PassSettings) (corpus : Corpus) (entrants : List (Entrant n))
    (reached : Nat) (underWay : List Nat) (evaluated : Nat) (stopped : Bool) (p : Progress) :
    Prop where
  collects : ∃ replies, p.Collects (.answering settings corpus entrants replies) reached underWay
  evaluated : p.evaluated = evaluated
  cancelled : p.cancelled = stopped

structure Lead.Gathers (settings : PassSettings) (corpus : Corpus) (entrants : List (Entrant n))
    (reached evaluated : Nat) (stopped : Bool) (lead : Lead n) : Prop where
  progress : lead.progress.Gathers settings corpus entrants reached (lead.due.map Due.cell)
    evaluated stopped
  due : ∀ due ∈ lead.due, due.IsIn corpus entrants

namespace Lead
variable [Monad n] [LawfulMonad n] {lead : Lead n} {evaluated : Nat} {stopped : Bool}
  (hnodup : (entrants.map (·.name)).Nodup)
include hnodup

theorem carryOutAll_gathers {dues : List (Due n)} (hdues : ∀ due ∈ dues, due.IsIn corpus entrants)
    (h : p.Gathers settings corpus entrants reached (dues.map Due.cell) evaluated stopped) :
    SatisfiesM (Progress.Gathers settings corpus entrants reached [] evaluated stopped)
      (carryOutAll settings.timeout dues p) := by
  induction dues generalizing p with
  | nil => exact .pure h
  | cons due rest ih =>
    refine SatisfiesM.bind .trivial fun reply _ => ih ?_ ?_
    · exact fun other hother => hdues other (List.mem_cons_of_mem due hother)
    · obtain ⟨replies, hcollects⟩ := h.collects
      have hdue := hdues due List.mem_cons_self
      exact ⟨⟨_, hcollects.join_answer hnodup hdue.cell hdue.available reply⟩,
        (Progress.evaluated_join ..).trans h.evaluated,
        (Progress.cancelled_join ..).trans h.cancelled⟩

theorem Gathers.catchUp (h : lead.Gathers settings corpus entrants reached evaluated stopped) :
    SatisfiesM (fun last => last.due = [] ∧
        last.Gathers settings corpus entrants reached evaluated stopped)
      (lead.catchUp settings.timeout) :=
  (carryOutAll_gathers hnodup h.due h.progress).bind fun _ hdone =>
    .pure ⟨rfl, hdone, fun _ hdue => absurd hdue List.not_mem_nil⟩

theorem Gathers.acquire (h : lead.Gathers settings corpus entrants reached evaluated stopped) :
    SatisfiesM (Lead.Gathers settings corpus entrants reached evaluated stopped)
      (lead.acquire settings) := by
  unfold Lead.acquire
  split
  · exact .pure h
  · exact (h.catchUp hnodup).imp And.right

theorem Gathers.takeUp (hcell : IsCellOf corpus entrants cell scenario entrant)
    (h : lead.Gathers settings corpus entrants cell evaluated stopped) :
    SatisfiesM (Lead.Gathers settings corpus entrants (cell + 1) evaluated stopped)
      (lead.takeUp settings (unavailable entrants) scenario cell entrant) := by
  have hpair : ∀ replies, (Trial.answering settings corpus entrants replies).pair? cell =
      some (scenario, entrant.answering replies) := fun replies =>
    (Trial.pair?_answering_eq_some_iff hnodup).2 ⟨scenario, entrant, hcell, rfl⟩
  have hgone := mem_unavailable hnodup (List.mem_of_getElem? hcell.entrant)
  unfold Lead.takeUp
  split
  · next habsent =>
    obtain ⟨replies, hcollects⟩ := h.progress.collects
    exact .pure ⟨⟨⟨replies, hcollects.skip (hpair replies) (hgone.1 habsent)⟩,
      h.progress.evaluated, h.progress.cancelled⟩, h.due⟩
  · next hpresent =>
    have hthere : entrant.available = true :=
      Bool.not_eq_false _ ▸ fun hfalse => hpresent (hgone.2 hfalse)
    refine (h.acquire hnodup).bind fun acquired hacquired => .pure ?_
    obtain ⟨replies, hcollects⟩ := hacquired.progress.collects
    have hspawned := hcollects.spawn (hpair replies) hthere
    refine ⟨⟨⟨replies, ?_⟩, hacquired.progress.evaluated, hacquired.progress.cancelled⟩,
      fun due hdue => ?_⟩
    · rwa [List.map_append, List.map_singleton]
    · rcases List.mem_append.1 hdue with hdue | hdue
      · exact hacquired.due due hdue
      · obtain rfl := List.mem_singleton.1 hdue
        exact ⟨hcell, hthere⟩

theorem Gathers.sweepRow (hscenario : corpus.scenarios[row]? = some scenario)
    {rest : List (Entrant n)} {column : Nat} (hrest : entrants.drop column = rest)
    (h : lead.Gathers settings corpus entrants (row * entrants.length + column) evaluated stopped) :
    SatisfiesM (Lead.Gathers settings corpus entrants
        (row * entrants.length + (column + rest.length)) evaluated stopped)
      (lead.sweepRow settings (unavailable entrants) scenario (row * entrants.length + column)
        rest) := by
  induction rest generalizing column lead with
  | nil => exact .pure h
  | cons entrant rest ih =>
    have hentrant : entrants[column]? = some entrant := by
      rw [← List.head?_drop, hrest]
      rfl
    have htail : entrants.drop (column + 1) = rest := by
      rw [← List.tail_drop, hrest]
      rfl
    have hlength : column + (rest.length + 1) = column + 1 + rest.length := by omega
    rw [List.length_cons, hlength]
    exact (h.takeUp hnodup (isCellOf_at hscenario hentrant)).bind fun _ htaken => ih htail htaken

theorem Gathers.sweep {signalled : n Bool} {mayStop : Prop}
    (hsignal : SatisfiesM (fun stops => stops = true → mayStop) signalled)
    {scenarios : List Scenario} (hrest : corpus.scenarios.drop row = scenarios)
    (hrow : row ≤ corpus.size)
    (h : lead.Gathers settings corpus entrants (row * entrants.length) row false) :
    SatisfiesM (fun last => ∃ k ≤ corpus.size, (k < corpus.size → mayStop) ∧
        last.Gathers settings corpus entrants (k * entrants.length) k (decide (k < corpus.size)))
      (sweep settings signalled entrants row scenarios lead) := by
  induction scenarios generalizing row lead with
  | nil =>
    obtain rfl : row = corpus.size := Nat.le_antisymm hrow (List.drop_eq_nil_iff.1 hrest)
    have hnot := Nat.lt_irrefl corpus.size
    refine .pure ⟨corpus.size, hrow, fun hlt => absurd hlt hnot, ?_⟩
    rwa [decide_eq_false hnot]
  | cons scenario rest ih =>
    have hscenario : corpus.scenarios[row]? = some scenario := by
      rw [← List.head?_drop, hrest]
      rfl
    have htail : corpus.scenarios.drop (row + 1) = rest := by
      rw [← List.tail_drop, hrest]
      rfl
    have hlt : row < corpus.size := (List.getElem?_eq_some_iff.1 hscenario).1
    refine hsignal.bind fun stops hstops => ?_
    cases stops with
    | true =>
      refine .pure ⟨row, hrow, fun _ => hstops rfl, ?_⟩
      obtain ⟨⟨⟨replies, hcollects⟩, hevaluated, -⟩, hdue⟩ := h
      rw [decide_eq_true hlt]
      exact ⟨⟨⟨replies, hcollects.of_eq rfl rfl⟩, hevaluated, rfl⟩, hdue⟩
    | false =>
      have hcounted : lead.count.Gathers settings corpus entrants (row * entrants.length + 0)
          (row + 1) false := by
        obtain ⟨⟨⟨replies, hcollects⟩, hevaluated, hcancelled⟩, hdue⟩ := h
        exact ⟨⟨⟨replies, hcollects.of_eq rfl rfl⟩, congrArg Nat.succ hevaluated, hcancelled⟩, hdue⟩
      have hswept := hcounted.sweepRow hnodup hscenario List.drop_zero
      rw [Nat.zero_add, ← Nat.succ_mul] at hswept
      exact hswept.bind fun _ hdone => ih htail hlt hdone

end Lead

end MergeTrial.Pass
