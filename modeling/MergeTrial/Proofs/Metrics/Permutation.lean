import MergeTrial.Proofs.Metrics.Tally
import MergeTrial.Proofs.Pass.Determinacy
import MergeTrial.Proofs.Records.Replay

/-! Reports do not depend on the order of the classifications, as long as no two of them disagree
about the same strategy on the same scenario. -/

namespace MergeTrial

/-! Names decide first, and whatever comes next decides between equal names. -/

namespace Lexical
variable {x y z : String} {p q r : Prop}

theorem lt_or_eq_or_gt (x y : String) : x < y ∨ x = y ∨ y < x := by
  by_cases hlt : x < y
  · exact Or.inl hlt
  · by_cases hgt : y < x
    · exact Or.inr (Or.inr hgt)
    · exact Or.inr (Or.inl (String.le_antisymm (String.not_lt.1 hgt) (String.not_lt.1 hlt)))

theorem total (h : p ∨ q) : (x < y ∨ x = y ∧ p) ∨ (y < x ∨ y = x ∧ q) := by
  rcases lt_or_eq_or_gt x y with hlt | heq | hgt
  · exact Or.inl (Or.inl hlt)
  · exact h.imp (fun hp => Or.inr ⟨heq, hp⟩) fun hq => Or.inr ⟨heq.symm, hq⟩
  · exact Or.inr (Or.inl hgt)

theorem trans (h : p → q → r) (hxy : x < y ∨ x = y ∧ p) (hyz : y < z ∨ y = z ∧ q) :
    x < z ∨ x = z ∧ r := by
  rcases hxy with hxy | ⟨rfl, hp⟩
  · rcases hyz with hyz | ⟨rfl, -⟩
    · exact Or.inl (String.lt_trans hxy hyz)
    · exact Or.inl hxy
  · exact hyz.imp_right fun ⟨heq, hq⟩ => ⟨heq, h hp hq⟩

theorem antisymm (hxy : x < y ∨ x = y ∧ p) (hyx : y < x ∨ y = x ∧ q) : x = y ∧ p ∧ q := by
  rcases hxy with hxy | ⟨rfl, hp⟩
  · rcases hyx with hyx | ⟨heq, -⟩
    · exact absurd hyx (String.lt_asymm hxy)
    · exact absurd heq.symm (String.ne_of_lt hxy)
  · exact ⟨rfl, hp, hyx.resolve_left (String.lt_irrefl x) |>.2⟩

end Lexical

namespace Gap

theorem le_iff {a b : Gap} : a.le b = true ↔ a.strategy < b.strategy ∨
    a.strategy = b.strategy ∧ (a.scenario < b.scenario ∨
      a.scenario = b.scenario ∧ a.status.rank ≤ b.status.rank) := by
  unfold le
  by_cases hstrategy : a.strategy = b.strategy
  · by_cases hscenario : a.scenario = b.scenario
    · simp [hstrategy, hscenario]
    · simp [hstrategy, hscenario]
  · simp [hstrategy]

theorem le_total (a b : Gap) : a.le b = true ∨ b.le a = true := by
  simp only [le_iff]
  exact Lexical.total (Lexical.total (Nat.le_total ..))

theorem le_trans {a b c : Gap} (hab : a.le b = true) (hbc : b.le c = true) : a.le c = true := by
  rw [le_iff] at *
  exact Lexical.trans (Lexical.trans Nat.le_trans) hab hbc

theorem rank_injective {a b : Status} (h : a.rank = b.rank) : a = b := by
  cases a <;> cases b <;> first | rfl | exact absurd h (by decide)

theorem le_antisymm {a b : Gap} (hab : a.le b = true) (hba : b.le a = true) : a = b := by
  rw [le_iff] at *
  obtain ⟨hstrategy, hab, hba⟩ := Lexical.antisymm hab hba
  obtain ⟨hscenario, hle, hge⟩ := Lexical.antisymm hab hba
  have hstatus := rank_injective (Nat.le_antisymm hle hge)
  cases a
  cases b
  simp_all

theorem pairwise_mergeSort :
    ∀ gaps : List Gap, (gaps.mergeSort le).Pairwise fun a b => a.le b = true :=
  List.pairwise_mergeSort (fun _ _ _ => le_trans) fun a b => by
    simpa only [Bool.or_eq_true] using le_total a b

theorem mergeSort_perm {as bs : List Gap} (h : as.Perm bs) : as.mergeSort le = bs.mergeSort le := by
  have hperm := (List.mergeSort_perm as le).trans (h.trans (List.mergeSort_perm bs le).symm)
  exact hperm.eq_of_pairwise (fun _ _ _ _ => le_antisymm) (pairwise_mergeSort as)
    (pairwise_mergeSort bs)

end Gap

/-- No two classifications of the same strategy on the same scenario disagree. -/
def Classification.Consistent (cs : List Classification) : Prop :=
  ∀ c ∈ cs, ∀ d ∈ cs, c.scenario = d.scenario → c.strategy = d.strategy → c.verdict = d.verdict

instance (cs : List Classification) : Decidable (Classification.Consistent cs) :=
  inferInstanceAs (Decidable (∀ c ∈ cs, ∀ d ∈ cs,
    c.scenario = d.scenario → c.strategy = d.strategy → c.verdict = d.verdict))

theorem Classification.consistent_of_nodup {cs : List Classification}
    (h : (cs.map fun c => (c.scenario, c.strategy)).Nodup) : Consistent cs := by
  intro c hc d hd hscenario hstrategy
  rw [List.inj_on_of_nodup_map h hc hd (Prod.ext hscenario hstrategy)]

namespace Confusion

theorem ofList_perm {cs ds : List Classification} (h : cs.Perm ds) : ofList cs = ofList ds :=
  h.foldl_eq' (fun c _ d _ m => record_comm m c d) empty

end Confusion

namespace Metrics
variable {cs ds : List Classification}

theorem matrices_perm (h : cs.Perm ds) :
    (Tally.ofList cs).matrices = (Tally.ofList ds).matrices := by
  ext1 strategy
  have hown : (Classification.ofStrategy strategy cs).Perm (Classification.ofStrategy strategy ds) :=
    h.filter _
  rw [Tally.get?_matrices, Tally.get?_matrices, hown.isEmpty_eq, Confusion.ofList_perm hown]

theorem gaps_perm (h : cs.Perm ds) :
    (Tally.ofList cs).gaps.mergeSort Gap.le = (Tally.ofList ds).gaps.mergeSort Gap.le := by
  rw [Tally.gaps_ofList, Tally.gaps_ofList]
  exact Gap.mergeSort_perm (h.filterMap gap?)

theorem verdicts_perm (h : cs.Perm ds) (hcs : Classification.Consistent cs) :
    (Tally.ofList cs).verdicts = (Tally.ofList ds).verdicts := by
  ext1 strategy
  have hown : (Classification.ofStrategy strategy cs).Perm (Classification.ofStrategy strategy ds) :=
    h.filter _
  have hmaps : (NameMap.ofList ((Classification.ofStrategy strategy cs).map fun c =>
      (c.scenario, c.verdict))) = .ofList ((Classification.ofStrategy strategy ds).map fun c =>
      (c.scenario, c.verdict)) := by
    refine (hown.map _).foldl_eq' (fun x hx y hy m => NameMap.insert_comm m fun hscenario => ?_) _
    obtain ⟨c, hc, rfl⟩ := List.mem_map.1 hx
    obtain ⟨d, hd, rfl⟩ := List.mem_map.1 hy
    obtain ⟨hc, hstrategy⟩ := List.mem_filter.1 hc
    obtain ⟨hd, hstrategy'⟩ := List.mem_filter.1 hd
    exact hcs c hc d hd hscenario ((of_decide_eq_true hstrategy).trans
      (of_decide_eq_true hstrategy').symm)
  rw [Tally.get?_verdicts, Tally.get?_verdicts, hown.isEmpty_eq, hmaps]

theorem compute_perm (h : cs.Perm ds) (hcs : Classification.Consistent cs) :
    compute cs = compute ds := by
  rw [compute, compute, matrices_perm h, gaps_perm h, verdicts_perm h hcs, h.length_eq]

/-- The order of the classifications shows in no report on what a pass or a replay produced, and
elsewhere at most in the comparisons between strategies. -/
theorem compute_order_independent :
    (∀ cs ds : List Classification, cs.Perm ds →
      (compute cs).matrices = (compute ds).matrices ∧ (compute cs).gaps = (compute ds).gaps ∧
      (compute cs).total = (compute ds).total ∧
      (Classification.Consistent cs → compute cs = compute ds)) ∧
    (∀ (t : Pass.Trial) (channel : Option Pass.Channel) (s : Pass.State) (e : Evaluation),
      t.Reachable channel s → s.isComplete = true → s.result t = .ok e →
      Classification.Consistent e.classifications) ∧
    ∀ (policy : Policy) (file : RecordFile) (cs : List Classification),
      file.classify policy = .ok cs → Classification.Consistent cs := by
  refine ⟨fun cs ds h => ⟨matrices_perm h, gaps_perm h, h.length_eq, compute_perm h⟩, ?_, ?_⟩
  · rintro t channel s e ⟨schedule, h⟩ hcomplete he
    exact Classification.consistent_of_nodup
      ((Pass.Trial.invariant_of_leads h).nodup_classifications hcomplete he)
  · exact fun policy file cs h => Classification.consistent_of_nodup (RecordFile.nodup_classify h)

def repeatedRuns : List Classification :=
  [.make .separate "S" "x" .success .success .agrees,
    .make .separate "S" "y" .success .failed .notComparable,
    .make .separate "S" "x" .success .success .agrees,
    .make .separate "T" "y" .conflict .conflicts .differs]

theorem compute_repeatedRuns_order_independent : repeatedRuns.Perm repeatedRuns.reverse ∧
    repeatedRuns ≠ repeatedRuns.reverse ∧ Classification.Consistent repeatedRuns ∧
    compute repeatedRuns = compute repeatedRuns.reverse := by
  have hperm : repeatedRuns.Perm repeatedRuns.reverse := (List.reverse_perm _).symm
  have hconsistent : Classification.Consistent repeatedRuns := by decide
  exact ⟨hperm, by decide, hconsistent,
    (compute_order_independent.1 _ _ hperm).2.2.2 hconsistent⟩

/-- Of two runs that disagree, the comparison between strategies takes the later one. -/
example :
    let right : Classification := .make .separate "S" "x" .success .success .agrees
    let wrong : Classification := .make .separate "S" "x" .success .success .differs
    let other : Classification := .make .separate "S" "y" .success .failed .notComparable
    compute [right, wrong, other] ≠ compute [wrong, right, other] := by decide

end Metrics
end MergeTrial
