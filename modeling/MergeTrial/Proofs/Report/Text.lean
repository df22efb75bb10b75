import MergeTrial.Proofs.Metrics.Restriction
import MergeTrial.Proofs.Text.Column
import MergeTrial.Report.Text

/-! The report for readers leaves nothing out. Its sections name each scenario of a strategy once,
under its verdict; its tables have a row and a column for each strategy; and each run without a
merge has a line of its own. -/

namespace MergeTrial

theorem NameMap.toList_eq_map_keys {α : Type} {m : NameMap α} {f : String → α}
    (h : ∀ entry ∈ m.toList, entry.2 = f entry.1) :
    m.toList = m.keys.map fun name => (name, f name) := by
  have hself : m.toList.map (fun entry => (entry.1, f entry.1)) = m.toList.map id :=
    List.map_congr_left fun entry hentry => Prod.ext rfl (h entry hentry).symm
  rw [keys, List.map_map]
  exact (hself.trans (List.map_id _)).symm

theorem NameMap.exists_mem_of_nonempty? {α : Type} {m : NameMap α} (h : m.nonempty? = some m) :
    ∃ entry, entry ∈ m.toList := by
  refine List.exists_mem_of_ne_nil _ fun hnil => ?_
  rw [nonempty?, hnil] at h
  exact nomatch h

theorem exists_ne_iff {α : Type} {xs : List α} {x : α} (hxs : xs.Nodup) (hx : x ∈ xs) :
    (∃ y ∈ xs, x ≠ y) ↔ ¬xs.length < 2 := by
  match xs with
  | [] => exact absurd hx List.not_mem_nil
  | [y] =>
    obtain rfl := List.mem_singleton.1 hx
    simp
  | y :: z :: rest =>
    have hyz : y ≠ z := fun heq => (List.nodup_cons.1 hxs).1 (heq ▸ List.mem_cons_self)
    refine iff_of_true ?_ (by simp)
    by_cases hxy : x = y
    · exact ⟨z, by simp, hxy ▸ hyz⟩
    · exact ⟨y, by simp, hxy⟩

namespace Metrics
variable {cs : List Classification} {a b : String}

def Gives (cs : List Classification) (strategy scenario : String) (v : Verdict) : Prop :=
  ∃ c ∈ cs, c.strategy = strategy ∧ c.scenario = scenario ∧ c.verdict = v

instance (cs : List Classification) (strategy scenario : String) (v : Verdict) :
    Decidable (Gives cs strategy scenario v) :=
  inferInstanceAs (Decidable (∃ c ∈ cs, c.strategy = strategy ∧ c.scenario = scenario ∧
    c.verdict = v))

def strategiesOf (cs : List Classification) : NameSet := .ofList (cs.map (·.strategy))

theorem mem_strategiesOf : a ∈ strategiesOf cs ↔ ∃ c ∈ cs, c.strategy = a := by
  rw [strategiesOf, NameSet.mem_ofList, List.mem_map]

theorem keys_matrices (cs : List Classification) :
    (compute cs).matrices.keys = (strategiesOf cs).toList :=
  NameSet.eq_of_ascending (compute cs).matrices.ascending (strategiesOf cs).ascending fun _ =>
    mem_keys_matrices.trans NameSet.mem_ofList.symm

theorem toList_matrices (cs : List Classification) : (compute cs).matrices.toList =
    (strategiesOf cs).toList.map fun strategy => (strategy, matrixOf strategy cs) := by
  rw [← keys_matrices]
  exact NameMap.toList_eq_map_keys fun entry hentry =>
    eq_matrixOf (NameMap.get?_eq_some_iff.2 hentry)

theorem mem_keys_pairwise : a ∈ (compute cs).pairwise.keys ↔
    a ∈ strategiesOf cs ∧ ∃ b ∈ strategiesOf cs, a ≠ b := by
  have hrow : a ∈ (compute cs).pairwise.keys ↔ ∃ b x, (compute cs).additional? a b = some x := by
    rw [← NameMap.get?_ne_none_iff, Option.ne_none_iff_exists']
    constructor
    · rintro ⟨row, hrow⟩
      obtain ⟨entry, hentry⟩ := NameMap.exists_mem_of_nonempty? (noEmptyRows_compute cs a row hrow)
      exact ⟨entry.1, entry.2, Option.bind_eq_some_iff.2
        ⟨row, hrow, NameMap.get?_eq_some_iff.2 hentry⟩⟩
    · rintro ⟨b, x, hx⟩
      obtain ⟨row, hrow, -⟩ := Option.bind_eq_some_iff.1 hx
      exact ⟨row, hrow⟩
  rw [hrow]
  simp only [additional?_eq_some_iff, exists_and_left, exists_eq, and_true, strategiesOf,
    NameSet.mem_ofList]
  constructor
  · rintro ⟨b, hne, ha, hb⟩
    exact ⟨ha, b, hb, hne⟩
  · rintro ⟨ha, b, hb, hne⟩
    exact ⟨b, hne, ha, hb⟩

theorem keys_pairwise (cs : List Classification) : (compute cs).pairwise.keys =
    if (strategiesOf cs).toList.length < 2 then [] else (strategiesOf cs).toList := by
  split
  · next hfew =>
    refine List.eq_nil_iff_forall_not_mem.2 fun a hmem => ?_
    obtain ⟨ha, hother⟩ := mem_keys_pairwise.1 hmem
    exact (exists_ne_iff (strategiesOf cs).nodup_toList ha).1 hother hfew
  · next hmany =>
    refine NameSet.eq_of_ascending (compute cs).pairwise.ascending (strategiesOf cs).ascending
      fun a => mem_keys_pairwise.trans (and_iff_left_of_imp fun ha => ?_)
    exact (exists_ne_iff (strategiesOf cs).nodup_toList ha).2 hmany

def bucketOf (cs : List Classification) (strategy : String) (v : Verdict) : NameSet :=
  (matrixOf strategy cs).scenarios v

theorem mem_bucketOf {scenario : String} {v : Verdict} :
    scenario ∈ bucketOf cs a v ↔ Gives cs a scenario v := by
  rw [bucketOf, matrixOf, Confusion.mem_scenarios_ofList, Gives]
  simp only [Classification.ofStrategy, List.mem_filter, decide_eq_true_eq, and_assoc]
  exact exists_congr fun c => and_congr_right fun _ => and_congr_right fun _ => and_comm

theorem gaps_perm_unfinished (hmade : ∀ c ∈ cs, c.IsMade) : (compute cs).gaps.Perm
    ((cs.filter fun c => c.status = .failed ∨ c.status = .skipped).map gapOf) := by
  have hstatus : ∀ c : Classification,
      (!c.status.completed) = decide (c.status = .failed ∨ c.status = .skipped) := by
    intro c
    cases c.status <;> rfl
  rw [← List.filter_congr fun c _ => hstatus c]
  exact gaps_perm_failed hmade

section
variable (hcs : (cs.map fun c => (c.scenario, c.strategy)).Nodup)
include hcs

theorem Gives.unique {scenario : String} {v w : Verdict} (h : Gives cs a scenario v)
    (h' : Gives cs a scenario w) : v = w := by
  rw [Gives, ← get?_verdictsOf hcs] at h h'
  exact Option.some.inj (h.symm.trans h')

theorem buckets_perm (a : String) : (Verdict.all.flatMap fun v => (bucketOf cs a v).toList).Perm
    ((Classification.ofStrategy a cs).map (·.scenario)) := by
  refine (List.perm_ext_iff_of_nodup ?_ (nodup_ofStrategy hcs a)).2 fun scenario => ?_
  · refine List.nodup_flatMap.2 ⟨fun v _ => (bucketOf cs a v).nodup_toList, ?_⟩
    have hall : Verdict.all.Nodup := by decide
    refine hall.imp fun hne scenario hv hw => hne ?_
    exact (mem_bucketOf.1 hv).unique hcs (mem_bucketOf.1 hw)
  · simp only [List.mem_flatMap, NameSet.mem_toList, mem_bucketOf, Gives, List.mem_map,
      Classification.ofStrategy, List.mem_filter, decide_eq_true_eq]
    constructor
    · rintro ⟨v, -, c, hc, hstrategy, hscenario, -⟩
      exact ⟨c, ⟨hc, hstrategy⟩, hscenario⟩
    · rintro ⟨c, ⟨hc, hstrategy⟩, hscenario⟩
      exact ⟨c.verdict, Verdict.mem_all _, c, hc, hstrategy, hscenario, rfl⟩

theorem count_against_eq_card (a b : String) (metric : Metric) :
    (Additional.against (verdictsOf a cs) (verdictsOf b cs)).count metric =
      ((cs.map (·.scenario)).toFinset.filter fun scenario =>
        Gives cs a scenario metric.verdict ∧ ¬Gives cs b scenario metric.verdict).card := by
  rw [(names_against_verdictsOf hcs a b metric).2, ← NameSet.card_toFinset]
  refine congrArg Finset.card (Finset.ext fun scenario => ?_)
  rw [List.mem_toFinset, NameSet.mem_toList, NameSet.mem_diff, Finset.mem_filter, List.mem_toFinset]
  have hmem : Gives cs a scenario metric.verdict → scenario ∈ cs.map (·.scenario) := by
    rintro ⟨c, hc, -, rfl, -⟩
    exact List.mem_map_of_mem hc
  exact (and_congr mem_bucketOf (not_congr mem_bucketOf)).trans
    (and_iff_right_of_imp fun h => hmem h.1).symm

end
end Metrics

namespace Report
open Metrics
variable {s : Summary} {cs : List Classification}

def bucketText? (v : Verdict) (scenarios : List String) : Option String :=
  if scenarios = [] then none
  else some ("  " ++ Text.atLeft 12 v.name ++ " " ++ ", ".intercalate scenarios)

def gapText (gap : Gap) : String :=
  "  " ++ Text.atLeft 16 gap.strategy ++ " " ++ Text.atLeft 40 gap.scenario ++ " "
    ++ gap.status.name

def columnWidth (names : List String) : Nat := (names.map String.utf8ByteSize).foldl max 4

def rowText (width : Nat) (name : String) (cells : List String) : String :=
  "  " ++ Text.atLeft width name ++ String.join (cells.map fun c => "  " ++ Text.atRight width c)

def tableText (strategies : List String) (metric : Metric) (cell : String → String → String) :
    List String :=
  let width := columnWidth strategies
  [rowText width metric.name strategies]
    ++ strategies.map (fun a => rowText width a (strategies.map (cell a))) ++ [""]

/-- What a report lists of the classifications: their strategies, the scenarios of each strategy
under each verdict, the runs without a merge, and what the tables say of two strategies. -/
structure Lists (cs : List Classification) (strategies : List String)
    (bucket : String → Verdict → List String) (gaps : List Gap)
    (cell : Metric → String → String → String) : Prop where
  strategies_ascending : strategies.Pairwise (· < ·)
  mem_strategies : ∀ strategy, strategy ∈ strategies ↔ ∃ c ∈ cs, c.strategy = strategy
  bucket_ascending : ∀ strategy v, (bucket strategy v).Pairwise (· < ·)
  mem_bucket : ∀ strategy v scenario,
    scenario ∈ bucket strategy v ↔ Gives cs strategy scenario v
  buckets : ∀ strategy, (Verdict.all.flatMap (bucket strategy)).Perm
    ((cs.filter fun c => c.strategy = strategy).map (·.scenario))
  gaps : gaps.Perm ((cs.filter fun c => c.status = .failed ∨ c.status = .skipped).map fun c =>
    ⟨c.strategy, c.scenario, c.status⟩)
  diagonal : ∀ metric a, cell metric a a = "-"
  cells : ∀ metric, ∀ a ∈ strategies, ∀ b ∈ strategies, a ≠ b → cell metric a b = toString
    ((cs.map (·.scenario)).toFinset.filter fun scenario =>
      Gives cs a scenario metric.verdict ∧ ¬Gives cs b scenario metric.verdict).card

theorem lists_compute (hmade : ∀ c ∈ cs, c.IsMade)
    (hcs : (cs.map fun c => (c.scenario, c.strategy)).Nodup) :
    Lists cs (strategiesOf cs).toList (fun strategy v => (bucketOf cs strategy v).toList)
      (compute cs).gaps (cell (compute cs)) where
  strategies_ascending := (strategiesOf cs).ascending
  mem_strategies _ := mem_strategiesOf
  bucket_ascending strategy v := (bucketOf cs strategy v).ascending
  mem_bucket _ _ _ := mem_bucketOf
  buckets := buckets_perm hcs
  gaps := gaps_perm_unfinished hmade
  diagonal metric a := by
    have hnone : (compute cs).additional? a a = none := by
      rw [additional?_compute, if_neg fun h => h.1 rfl]
    rw [cell, hnone]
  cells metric a ha b hb hne := by
    have hsome : (compute cs).additional? a b =
        some (.against (verdictsOf a cs) (verdictsOf b cs)) := by
      rw [additional?_compute, if_pos ⟨hne, NameSet.mem_ofList.1 ha, NameSet.mem_ofList.1 hb⟩]
    rw [cell, hsome, ← count_against_eq_card hcs]

theorem bucketLine?_eq (m : Confusion) (v : Verdict) :
    bucketLine? m v = bucketText? v (m.scenarios v).toList := by
  rw [bucketLine?, bucketText?, NameSet.isEmpty, Text.padEnd_eq]
  simp only [List.isEmpty_iff]

theorem sections_eq (cs : List Classification) :
    ((compute cs).matrices.toList.flatMap fun entry => strategySection entry.1 entry.2) =
      (strategiesOf cs).toList.flatMap fun strategy =>
        [strategy, Text.rule strategy.utf8ByteSize, countsLine (matrixOf strategy cs),
          sharesLine (matrixOf strategy cs)]
          ++ Verdict.all.filterMap (fun v => bucketText? v (bucketOf cs strategy v).toList)
          ++ [""] := by
  rw [toList_matrices, List.flatMap_map]
  refine List.flatMap_congr fun strategy _ => ?_
  simp only [strategySection, bucketLine?_eq]
  rfl

theorem tableRow_eq : tableRow = rowText := by
  funext width name cells
  simp only [tableRow, rowText, Text.padEnd_eq, Text.padStart_eq]

theorem gapLine_eq : gapLine = gapText := by
  funext gap
  simp only [gapLine, gapText, Text.padEnd_eq]

theorem tables_eq (cs : List Classification) : tables (compute cs) =
    if (strategiesOf cs).toList.length < 2 then []
    else
      ["Additional metrics (row strategy over column strategy)",
        "------------------------------------------------------"]
        ++ Metric.all.flatMap fun metric =>
          tableText (strategiesOf cs).toList metric (cell (compute cs) metric) := by
  have hkeys := keys_pairwise cs
  by_cases hfew : (strategiesOf cs).toList.length < 2
  · rw [if_pos hfew, NameMap.keys, List.map_eq_nil_iff] at hkeys
    rw [if_pos hfew, tables, hkeys]
    rfl
  · rw [if_neg hfew] at hkeys
    have hne : ¬(compute cs).pairwise.toList.isEmpty = true := by
      intro hempty
      rw [NameMap.keys, List.isEmpty_iff.1 hempty] at hkeys
      exact hfew (hkeys ▸ Nat.zero_lt_two)
    rw [if_neg hfew, tables, if_neg hne]
    refine congrArg _ (List.flatMap_congr fun metric _ => ?_)
    simp only [table, tableText, columnWidth, hkeys, tableRow_eq, List.foldl_map, List.cons_append,
      List.nil_append]

theorem gapLines_eq (metrics : Metrics) : gapLines metrics =
    if metrics.gaps = [] then []
    else ["Not classified", "--------------"] ++ metrics.gaps.map gapText ++ [""] := by
  simp only [gapLines, List.isEmpty_iff, gapLine_eq]

/-- The text is put together from what it has to list, and from nothing else but the heading and,
for each strategy, its counts and shares. -/
theorem render_lists_all (s : Summary) (cs : List Classification) (hmade : ∀ c ∈ cs, c.IsMade)
    (hcs : (cs.map fun c => (c.scenario, c.strategy)).Nodup) :
    ∃ strategies bucket gaps cell, Lists cs strategies bucket gaps cell ∧
      render s (compute cs) = String.join (List.map (· ++ "\n") (heading s
        ++ (strategies.flatMap fun strategy =>
          [strategy, Text.rule strategy.utf8ByteSize, countsLine (matrixOf strategy cs),
            sharesLine (matrixOf strategy cs)]
            ++ Verdict.all.filterMap (fun v => bucketText? v (bucket strategy v)) ++ [""])
        ++ (if strategies.length < 2 then []
          else
            ["Additional metrics (row strategy over column strategy)",
              "------------------------------------------------------"]
              ++ Metric.all.flatMap fun metric => tableText strategies metric (cell metric))
        ++ if gaps = [] then []
          else ["Not classified", "--------------"] ++ gaps.map gapText ++ [""])) := by
  refine ⟨_, _, _, _, lists_compute hmade hcs, ?_⟩
  rw [render, Text.unlines, lines, sections_eq, tables_eq, gapLines_eq]

def uneven : List Classification :=
  [.make .separate "S" "y" .conflict .success .notComparable,
    .make .separate "S" "x" .conflict .conflicts .notComparable,
    .make .separate "T" "x" .success .skipped .notComparable,
    .make .separate "T" "y" .success .success .agrees]

def unevenSummary : Summary := ⟨"corpus", none, ⟨0, 0⟩, 2, 2, false, [], .separate⟩

theorem uneven_render_lists_all : (∀ c ∈ uneven, c.IsMade) ∧
    (uneven.map fun c => (c.scenario, c.strategy)).Nodup ∧
    (∃ strategies bucket gaps cell, Lists uneven strategies bucket gaps cell ∧
      strategies = ["x", "y"] ∧ bucket "x" .truePositive = ["S"] ∧
      gaps = [⟨"x", "T", .skipped⟩] ∧ cell .truePositive "x" "y" = "1" ∧
      cell .truePositive "y" "x" = "0") ∧
    render unevenSummary (compute uneven) = String.join (List.map (· ++ "\n")
      ["Merge strategy evaluation", "=========================", "Source:      corpus",
       "Generated:   1970-01-01 00:00:00 UTC", "Scenarios:   2 of 2 evaluated", "", "x", "-",
       "  TP    1   TN    0   FP    0   FN    0   WRONG_MERGE    0   error    1",
       "  precision 100.0%   recall 100.0%   coverage gap 50.0%", "  TP           S",
       "  error        T", "", "y", "-",
       "  TP    0   TN    1   FP    0   FN    1   WRONG_MERGE    0   error    0",
       "  precision n/a   recall 0.0%   coverage gap 0.0%", "  TN           T", "  FN           S",
       "", "Additional metrics (row strategy over column strategy)",
       "------------------------------------------------------", "  aTP      x     y",
       "  x        -     1", "  y        0     -", "", "  aTN      x     y", "  x        -     0",
       "  y        1     -", "", "  aFP      x     y", "  x        -     0", "  y        0     -",
       "", "  aFN      x     y", "  x        -     0", "  y        1     -", "", "Not classified",
       "--------------",
       "  x                T                                        SKIPPED", ""]) := by
  have hmade : ∀ c ∈ uneven, c.IsMade := by
    simp only [uneven, List.forall_mem_cons]
    simp [Classification.isMade_make]
  have hnodup : (uneven.map fun c => (c.scenario, c.strategy)).Nodup := by decide
  obtain ⟨strategies, bucket, gaps, cell, hlists, -⟩ :=
    render_lists_all unevenSummary uneven hmade hnodup
  have hstrategies : strategies = (strategiesOf uneven).toList :=
    NameSet.eq_of_ascending hlists.strategies_ascending (strategiesOf uneven).ascending fun _ =>
      (hlists.mem_strategies _).trans mem_strategiesOf.symm
  have hbucket : bucket "x" .truePositive = (bucketOf uneven "x" .truePositive).toList :=
    NameSet.eq_of_ascending (hlists.bucket_ascending ..) (bucketOf uneven "x" _).ascending fun _ =>
      (hlists.mem_bucket ..).trans mem_bucketOf.symm
  have hx : "x" ∈ strategies := hstrategies ▸ by decide
  have hy : "y" ∈ strategies := hstrategies ▸ by decide
  refine ⟨hmade, hnodup, ⟨strategies, bucket, gaps, cell, hlists, hstrategies.trans (by decide),
    hbucket.trans (by decide), List.perm_singleton.1 hlists.gaps,
    (hlists.cells .truePositive "x" hx "y" hy (by decide)).trans (by decide),
    (hlists.cells .truePositive "y" hy "x" hx (by decide)).trans (by decide)⟩, ?_⟩
  decide +kernel

end Report
end MergeTrial
