import MergeTrial.Proofs.Pass.Determinacy

/-! Passes over fewer strategies. The first strategy of each name is the same whether names are left
out before or after the repetitions, and a run depends on its own pair only. So what a pass with
some of the strategies produces is that part of what the pass with all of them produces. -/

namespace MergeTrial

namespace Settings

def keeps (only : List String) (name : String) : Bool := only.isEmpty || only.contains name

theorem select_eq_ok {s : Settings} {only : List String}
    (h : ∀ name ∈ only, ∃ tool ∈ s.tools, tool.name = name) :
    s.select only = .ok (s.tools.filter fun tool => keeps only tool.name) := by
  have hknown : (only.filter fun name => s.tools.all fun tool => tool.name != name) = [] := by
    refine List.filter_eq_nil_iff.2 fun name hname hunknown => ?_
    obtain ⟨tool, htool, rfl⟩ := h name hname
    exact bne_iff_ne.1 (List.all_eq_true.1 hunknown tool htool) rfl
  rw [select, hknown]
  rfl

theorem select_nil (s : Settings) : s.select [] = .ok s.tools := by
  have hnone : ∀ name ∈ ([] : List String), ∃ tool ∈ s.tools, tool.name = name := by nofun
  rw [select_eq_ok hnone]
  exact congrArg Except.ok (List.filter_eq_self.2 fun _ _ => rfl)

end Settings

def Evaluation.restrict (kept : String → Bool) (e : Evaluation) : Evaluation :=
  { e with
    runs := e.runs.filter fun run => kept run.strategy
    classifications := e.classifications.filter fun c => kept c.strategy
    unavailable := e.unavailable.filter kept }

namespace Pass

theorem distinctAfter_filter {α : Type} (name : α → String) (kept : String → Bool) (xs : List α)
    {seen seen' : NameSet} (h : ∀ x, kept x = true → (x ∈ seen ↔ x ∈ seen')) :
    distinctAfter name seen (xs.filter fun x => kept (name x)) =
      (distinctAfter name seen' xs).filter fun x => kept (name x) := by
  induction xs generalizing seen seen' with
  | nil => rfl
  | cons x rest ih =>
    rw [List.filter_cons, distinctAfter]
    by_cases hkept : kept (name x) = true
    · rw [if_pos hkept, distinctAfter]
      by_cases hseen : name x ∈ seen
      · rw [if_pos hseen, if_pos ((h _ hkept).1 hseen)]
        exact ih h
      · rw [if_neg hseen, if_neg fun hseen' => hseen ((h _ hkept).2 hseen'), List.filter_cons,
          if_pos hkept]
        refine congrArg (x :: ·) (ih fun y hy => ?_)
        rw [NameSet.mem_insert, NameSet.mem_insert, h y hy]
    · rw [if_neg hkept]
      split
      · exact ih h
      · rw [List.filter_cons, if_neg hkept]
        refine ih fun y hy => ?_
        have hne : y ≠ name x := fun heq => hkept (heq ▸ hy)
        rw [NameSet.mem_insert, or_iff_right hne, h y hy]

namespace Trial
variable (t : Trial) (kept : String → Bool)

def restrict : Trial :=
  { t with registered := t.registered.filter fun entrant => kept entrant.name }

theorem entrants_restrict :
    (t.restrict kept).entrants = t.entrants.filter fun entrant => kept entrant.name :=
  distinctAfter_filter Entrant.name kept t.registered fun _ _ => Iff.rfl

theorem pairs_restrict (k : Nat) :
    (t.restrict kept).pairs k = (t.pairs k).filter fun pair => kept pair.2.name := by
  rw [pairs, entrants_restrict, pairs, List.filter_flatMap]
  simp only [List.filter_map, Function.comp_def]
  rfl

/-- A pass over fewer strategies produces its part of what the pass over all of them produces. -/
theorem outcome_restrict (k : Nat) :
    (t.restrict kept).outcome k = (t.outcome k).restrict kept := by
  have hruns : ((t.restrict kept).pairs k).map (fun pair => t.runOf pair.1 pair.2) =
      ((t.pairs k).map fun pair => t.runOf pair.1 pair.2).filter fun run => kept run.strategy := by
    rw [pairs_restrict, List.filter_map]
    simp only [Function.comp_def, strategy_runOf]
  have hclassifications : ((t.restrict kept).pairs k).map (fun pair =>
      t.classificationOf t.settings.policy pair.1 pair.2) =
      ((t.pairs k).map fun pair =>
        t.classificationOf t.settings.policy pair.1 pair.2).filter fun c => kept c.strategy := by
    rw [pairs_restrict, List.filter_map]
    rfl
  have hunavailable : ((t.restrict kept).entrants.filter fun entrant => !entrant.available).map
      (·.name) = ((t.entrants.filter fun entrant => !entrant.available).map (·.name)).filter
        kept := by
    rw [entrants_restrict, List.filter_map, List.filter_filter, List.filter_filter]
    simp only [Function.comp_def, Bool.and_comm]
  exact Evaluation.mk.injEq .. ▸ ⟨hruns, hclassifications, hunavailable, rfl, rfl⟩

variable {t kept}

theorem Invariant.result_restrict {s s' : State} (h : t.Invariant s)
    (hcomplete : s.isComplete = true) (hcancelled : s.progress.cancelled = false)
    (h' : (t.restrict kept).Invariant s') (hcomplete' : s'.isComplete = true)
    (hcancelled' : s'.progress.cancelled = false) :
    ∃ e, s.result t = .ok e ∧ s'.result (t.restrict kept) = .ok (e.restrict kept) := by
  have hall : s.progress.evaluated = t.corpus.size := h.evaluated_eq hcomplete hcancelled
  have hall' : s'.progress.evaluated = t.corpus.size := h'.evaluated_eq hcomplete' hcancelled'
  refine ⟨t.outcome t.corpus.size, ?_, ?_⟩
  · rw [h.result_eq hcomplete, hall]
  · rw [h'.result_eq hcomplete', hall', outcome_restrict]

end Trial
end Pass
end MergeTrial
