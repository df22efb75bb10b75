import MergeTrial.Tool.Outcome
import MergeTrial.Classification
import MergeTrial.Proofs.Marker

/-! What a finished process means, from its exit code and what it wrote to the verdict on it. -/

namespace MergeTrial

namespace ToolSpec
variable {spec : ToolSpec} {code : Option Int} {stdout stderr reason : String}

/-- The tool merged, with conflicts: it says so by its exit code, or leaves a marker in what it
otherwise calls a clean merge. -/
def ReportsConflicts (spec : ToolSpec) (code : Option Int) (stdout : String) : Prop :=
  (∃ n low high, code = some n ∧ n ≠ 0 ∧ spec.conflictExits = some (low, high) ∧
    low ≤ n ∧ n ≤ high) ∨
  code = some 0 ∧ spec.detectMarkers = true ∧ Marker.Marked stdout

def ReportsSuccess (spec : ToolSpec) (code : Option Int) (stdout : String) : Prop :=
  code = some 0 ∧ ¬(spec.detectMarkers = true ∧ Marker.Marked stdout)

def failureReason : Option Int → String
  | none => "terminated by signal"
  | some n => "exited with code " ++ n.repr

/-- The text is the reason, on a line of its own after what `stderr` says up to its last character
that is not blank, if it has one. -/
def Explains (stderr reason text : String) : Prop :=
  (∀ c ∈ stderr.toList, Text.isBlank c = true) ∧ text = reason ∨
  ∃ said last blanks, stderr.toList = said ++ last :: blanks ∧ Text.isBlank last = false ∧
    (∀ c ∈ blanks, Text.isBlank c = true) ∧
    text = String.ofList (said ++ [last]) ++ "\n" ++ reason

theorem isConflictExit_iff {n : Int} : spec.isConflictExit n = true ↔
    ∃ low high, spec.conflictExits = some (low, high) ∧ low ≤ n ∧ n ≤ high := by
  rw [isConflictExit]
  cases spec.conflictExits with
  | none => simp
  | some range =>
    rw [Bool.and_eq_true, decide_eq_true_iff, decide_eq_true_iff]
    exact ⟨fun h => ⟨_, _, rfl, h⟩, fun ⟨_, _, hrange, h⟩ => Option.some.inj hrange ▸ h⟩

theorem reportsConflicts_zero_iff : spec.ReportsConflicts (some 0) stdout ↔
    spec.detectMarkers = true ∧ Marker.Marked stdout := by
  constructor
  · rintro (⟨n, _, _, hcode, hn, -⟩ | h)
    · exact absurd (Option.some.inj hcode).symm hn
    · exact h.2
  · exact fun h => Or.inr ⟨rfl, h⟩

theorem reportsConflicts_some_iff {n : Int} (hn : n ≠ 0) :
    spec.ReportsConflicts (some n) stdout ↔ spec.isConflictExit n = true := by
  rw [isConflictExit_iff]
  constructor
  · rintro (⟨_, low, high, hcode, -, h⟩ | h)
    · obtain rfl := Option.some.inj hcode
      exact ⟨low, high, h⟩
    · exact absurd (Option.some.inj h.1) hn
  · exact fun ⟨low, high, h⟩ => Or.inl ⟨n, low, high, rfl, hn, h⟩

theorem interpret_cases (spec : ToolSpec) (code : Option Int) (stdout stderr : String) :
    (spec.ReportsConflicts code stdout ∧
      spec.interpret code stdout stderr = ⟨.conflicts, stdout, stderr⟩) ∨
    (spec.ReportsSuccess code stdout ∧
      spec.interpret code stdout stderr = ⟨.success, stdout, stderr⟩) ∨
    (¬spec.ReportsConflicts code stdout ∧ ¬spec.ReportsSuccess code stdout ∧
      spec.interpret code stdout stderr = .failed (withReason stderr (failureReason code))) := by
  cases code with
  | none =>
    have hconflicts : ¬spec.ReportsConflicts none stdout := by
      rintro (⟨_, _, _, h, -⟩ | ⟨h, -⟩) <;> exact nomatch h
    have hsuccess : ¬spec.ReportsSuccess none stdout := fun ⟨h, _⟩ => nomatch h
    exact Or.inr (Or.inr ⟨hconflicts, hsuccess, rfl⟩)
  | some n =>
    by_cases hn : n = 0
    · subst hn
      have hmarked : (spec.detectMarkers && Marker.occursIn stdout) = true ↔
          spec.ReportsConflicts (some 0) stdout := by
        rw [reportsConflicts_zero_iff, Bool.and_eq_true, Marker.occursIn_iff]
      by_cases h : spec.ReportsConflicts (some 0) stdout
      · exact Or.inl ⟨h, by rw [interpret, exitStatus?, if_pos rfl, if_pos (hmarked.2 h)]⟩
      · refine Or.inr (Or.inl ⟨⟨rfl, fun h' => h (reportsConflicts_zero_iff.2 h')⟩, ?_⟩)
        rw [interpret, exitStatus?, if_pos rfl, if_neg (mt hmarked.1 h)]
    · by_cases h : spec.ReportsConflicts (some n) stdout
      · refine Or.inl ⟨h, ?_⟩
        rw [interpret, exitStatus?, if_neg hn, if_pos ((reportsConflicts_some_iff hn).1 h)]
      · refine Or.inr (Or.inr ⟨h, fun h' => hn (Option.some.inj h'.1), ?_⟩)
        rw [interpret, exitStatus?, if_neg hn, if_neg (mt (reportsConflicts_some_iff hn).2 h)]
        rfl

theorem not_reportsConflicts_of_success (h : spec.ReportsSuccess code stdout) :
    ¬spec.ReportsConflicts code stdout := by
  obtain ⟨rfl, h⟩ := h
  rwa [reportsConflicts_zero_iff]

theorem explains_withReason (stderr reason : String) :
    Explains stderr reason (withReason stderr reason) := by
  by_cases hblank : Text.allBlank stderr = true
  · exact Or.inl ⟨List.all_eq_true.1 hblank, if_pos hblank⟩
  · obtain ⟨blanks, hstderr, hblanks⟩ := Text.exists_dropBlanksEnd_append stderr.toList
    -- if nothing were left without the blanks at the end, all of it would be blank
    have hkept : Text.dropBlanksEnd stderr.toList ≠ [] := by
      intro hnil
      rw [hnil, List.nil_append] at hstderr
      exact hblank (List.all_eq_true.2 (hstderr ▸ hblanks))
    obtain ⟨said, last, hsaid⟩ : ∃ said last, Text.dropBlanksEnd stderr.toList = said ++ [last] :=
      ⟨_, _, (List.dropLast_concat_getLast hkept).symm⟩
    refine Or.inr ⟨said, last, blanks, ?_, ?_, hblanks, ?_⟩
    · rw [hstderr, hsaid, List.append_assoc, List.singleton_append]
    · exact Text.getLast_dropBlanksEnd (hsaid ▸ List.getLast?_concat)
    · rw [withReason, if_neg hblank, Text.trimEnd, hsaid]

theorem failureReason_not_blank (code : Option Int) :
    ∃ c ∈ (failureReason code).toList, Text.isBlank c = false := by
  cases code with
  | none => exact ⟨'t', by decide, by decide⟩
  | some n =>
    have htext : (failureReason (some n)).toList = "exited with code ".toList ++ n.repr.toList :=
      String.toList_append
    exact ⟨'e', htext ▸ List.mem_append_left _ (by decide), by decide⟩

theorem Explains.not_blank {text : String} (h : Explains stderr reason text)
    (hreason : ∃ c ∈ reason.toList, Text.isBlank c = false) :
    ∃ c ∈ text.toList, Text.isBlank c = false := by
  obtain ⟨c, hc, hblank⟩ := hreason
  refine ⟨c, ?_, hblank⟩
  rcases h with ⟨-, rfl⟩ | ⟨_, _, _, -, -, -, rfl⟩
  · exact hc
  · rw [String.toList_append]
    exact List.mem_append_right _ hc

theorem exists_row_ofOutput {output : Output} (h : output.status ≠ .skipped) (scenario : Scenario)
    (strategy : String) (policy : Policy) :
    ∃ row, Classification.ofRun policy scenario (.ofOutput scenario strategy output) = .ok row ∧
      (row.verdict = .error ↔ output.status = .failed) := by
  refine ⟨_, Classification.ofRun_ofOutput policy scenario strategy output, ?_⟩
  refine (Verdict.judge_eq_error_iff ..).trans ?_
  cases hstatus : output.status with
  | skipped => exact absurd hstatus h
  | _ => decide

/-- Whatever the tool left behind, its end is read as one of three statuses. A completed run keeps
what it wrote; a failed one keeps no output, says why, and is judged an error. -/
theorem interpret_then_classify (spec : ToolSpec) (code : Option Int) (stdout stderr : String)
    (scenario : Scenario) (strategy : String) (policy : Policy) :
    let run := Run.ofOutput scenario strategy (spec.interpret code stdout stderr)
    (run.status = .conflicts ↔ spec.ReportsConflicts code stdout) ∧
    (run.status = .success ↔ spec.ReportsSuccess code stdout) ∧
    (run.status = .failed ↔
      ¬spec.ReportsConflicts code stdout ∧ ¬spec.ReportsSuccess code stdout) ∧
    (run.status ≠ .failed → run.output = stdout ∧ run.stderr = stderr) ∧
    (run.status = .failed → run.output = "" ∧ run.comparison = .notComparable ∧
      Explains stderr (failureReason code) run.stderr ∧
      ∃ c ∈ run.stderr.toList, Text.isBlank c = false) ∧
    ∃ row, Classification.ofRun policy scenario run = .ok row ∧
      (row.verdict = .error ↔ run.status = .failed) := by
  have hcases := interpret_cases spec code stdout stderr
  generalize spec.interpret code stdout stderr = output at hcases
  rcases hcases with ⟨hconflicts, rfl⟩ | ⟨hsuccess, rfl⟩ | ⟨hconflicts, hsuccess, rfl⟩
  · have hsuccess : ¬spec.ReportsSuccess code stdout :=
      fun hsuccess => not_reportsConflicts_of_success hsuccess hconflicts
    exact ⟨iff_of_true rfl hconflicts, iff_of_false nofun hsuccess,
      iff_of_false nofun fun h => h.1 hconflicts, fun _ => ⟨rfl, rfl⟩, nofun,
      exists_row_ofOutput Status.noConfusion scenario strategy policy⟩
  · have hconflicts := not_reportsConflicts_of_success hsuccess
    exact ⟨iff_of_false nofun hconflicts, iff_of_true rfl hsuccess,
      iff_of_false nofun fun h => h.2 hsuccess, fun _ => ⟨rfl, rfl⟩, nofun,
      exists_row_ofOutput Status.noConfusion scenario strategy policy⟩
  · have hexplains := explains_withReason stderr (failureReason code)
    have hcomparison := Run.comparison_ofOutput scenario strategy
      (.failed (withReason stderr (failureReason code))) rfl
    exact ⟨iff_of_false nofun hconflicts, iff_of_false nofun hsuccess,
      iff_of_true rfl ⟨hconflicts, hsuccess⟩, fun h => absurd rfl h,
      fun _ => ⟨rfl, hcomparison, hexplains, hexplains.not_blank (failureReason_not_blank code)⟩,
      exists_row_ofOutput Status.noConfusion scenario strategy policy⟩

theorem killed_interpret_then_classify :
    let spec : ToolSpec := ⟨"merge", [], some (1, 127), true, none, 0, none⟩
    let scenario : Scenario := ⟨"S", .success, "", "", "", some "merged\n", none⟩
    let run := Run.ofOutput scenario "merge" (spec.interpret none "merged\n" "broken pipe \n")
    run.status = .failed ∧ run.output = "" ∧
      ∃ row, Classification.ofRun .separate scenario run = .ok row ∧ row.verdict = .error := by
  intro spec scenario run
  obtain ⟨-, -, -, -, hfailed, row, hrow, hverdict⟩ :=
    interpret_then_classify spec none "merged\n" "broken pipe \n" scenario "merge" .separate
  exact ⟨rfl, (hfailed rfl).1, row, hrow, hverdict.2 rfl⟩

end ToolSpec
end MergeTrial
