import MergeTrial.Artifacts
import MergeTrial.Proofs.Diff.Reading
import MergeTrial.Proofs.Diff.Shortest

/-! A diff leads from the one text to the other, whichever script between their lines it prints. -/

namespace MergeTrial.Diff
variable {α : Type} {edits : List (Edit α)} {hs : List (Hunk α)} {passed made : Nat}

def hunkTexts (edits : List (Edit String)) : String := String.join ((hunks edits).map hunkText)

theorem Fits.mem {before after : List α} (h : Fits passed made hs before after) :
    ∀ h ∈ hs, ∀ x ∈ source h.edits ++ target h.edits, x ∈ before ++ after := by
  induction h with
  | done => exact nofun
  | hunk hsource htarget hfits ih =>
    refine List.forall_mem_cons.2 ⟨fun x hx => ?_, fun h hh x hx => ?_⟩
    · rcases List.mem_append.1 hx with hx | hx <;> simp [hx]
    · rcases List.mem_append.1 (ih h hh x hx) with hx | hx <;> simp [hx]

section Texts
variable {before after : String} {edits : List (Edit String)}
  (hsource : source edits = lines before) (htarget : target edits = lines after)
include hsource htarget

theorem isLine_of_mem_hunks : ∀ h ∈ hunks edits, ∀ line ∈ source h.edits ++ target h.edits,
    IsLine line := by
  intro h hh line hline
  have hmem := (fits_hunks edits).mem h hh line hline
  rw [hsource, htarget] at hmem
  exact (List.mem_append.1 hmem).elim isLine_of_mem_lines isLine_of_mem_lines

theorem patched?_hunkTexts : Patch.patched? (hunkTexts edits) before = some after := by
  have hfits := Patch.applyFrom_of_fits (fits_hunks edits)
  rw [hsource, htarget] at hfits
  rw [Patch.patched?, hunkTexts,
    Patch.hunks?_hunkTexts (isLine_of_mem_hunks hsource htarget)]
  simp only [Option.bind_eq_bind, Option.bind_some, hfits, join_lines]
  rfl

theorem patched?_named {sourceName targetName : String} (hsourceName : Unbroken sourceName.toList)
    (htargetName : Unbroken targetName.toList) :
    Patch.patched? ("--- " ++ sourceName ++ "\n+++ " ++ targetName ++ "\n" ++ hunkTexts edits)
      before = some after := by
  have hpatched := patched?_hunkTexts hsource htarget
  rw [Patch.patched?] at hpatched ⊢
  rwa [hunkTexts, Patch.hunks?_named hsourceName htargetName]

theorem hunks_ne_nil (hne : before ≠ after) : hunks edits ≠ [] := by
  intro hnil
  have hsame : lines before = lines after := by
    rw [← hsource, ← htarget, source_eq_target_of_hunks hnil]
  exact hne (by rw [← join_lines before, hsame, join_lines])

theorem hunkTexts_ne_empty (hne : before ≠ after) : hunkTexts edits ≠ "" := by
  obtain ⟨h, hs, hhunks⟩ := List.exists_cons_of_ne_nil (hunks_ne_nil hsource htarget hne)
  rw [hunkTexts, hhunks, List.map_cons, String.join_cons, hunkText]
  simp

end Texts

theorem unified_eq {before after : String} (hne : before ≠ after) (sourceName targetName : String) :
    unified sourceName targetName before after =
      "--- " ++ sourceName ++ "\n+++ " ++ targetName ++ "\n" ++
        hunkTexts (script (lines before) (lines after)) := by
  have hsome := hunks_ne_nil (source_script _ _) (target_script _ _) hne
  rw [unified, hunkTexts]
  split
  · next hnil => exact absurd hnil hsome
  · rfl

end MergeTrial.Diff

namespace MergeTrial.Artifacts
open Diff

def diffText (strategy body : String) : String :=
  "--- expected\n+++ " ++ strategy ++ "\n" ++ body

/-- The hunks lead from the expected merge to the output. So does the file as a whole, unless the
name of the strategy takes more than one line there. -/
structure Bridges (strategy body expected output : String) : Prop where
  ne_empty : body ≠ ""
  patched : Patch.patched? body expected = some output
  patched_file : Unbroken strategy.toList →
    Patch.patched? (diffText strategy body) expected = some output

theorem diffText_eq (strategy body : String) :
    "--- " ++ "expected" ++ "\n+++ " ++ strategy ++ "\n" ++ body = diffText strategy body := by
  have hnames : "--- " ++ "expected" ++ "\n+++ " = "--- expected\n+++ " := by decide
  exact congrArg (· ++ strategy ++ "\n" ++ body) hnames

theorem bridges_hunkTexts {expected output : String} (hdiffers : output ≠ expected)
    {edits : List (Edit String)} (hsource : source edits = lines expected)
    (htarget : target edits = lines output) (strategy : String) :
    Bridges strategy (hunkTexts edits) expected output where
  ne_empty := hunkTexts_ne_empty hsource htarget hdiffers.symm
  patched := patched?_hunkTexts hsource htarget
  patched_file hstrategy := by
    rw [← diffText_eq]
    exact patched?_named hsource htarget (by decide) hstrategy

structure IsShortest (edits : List (Edit String)) (before after : String) : Prop where
  source : source edits = lines before
  target : target edits = lines after
  length_le : ∀ other, Diff.source other = lines before → Diff.target other = lines after →
    edits.length ≤ other.length

/-- The diff of a completed run is made from a shortest script, and leads from the expected merge to
the output. Any other script between the lines of the two would do as well. -/
theorem diff_leads_to_output {scenario : Scenario} {output : Output} {expected : String}
    (hexpected : scenario.expected = some expected) (hcompleted : output.status.completed = true)
    (hdiffers : output.text ≠ expected) (strategy : String) :
    (∃ edits, IsShortest edits expected output.text ∧
      (strategy ++ ".diff", diffText strategy (hunkTexts edits)) ∈
        files scenario (.ofOutput scenario strategy output) ∧
      Bridges strategy (hunkTexts edits) expected output.text) ∧
    ∀ edits, source edits = lines expected → target edits = lines output.text →
      Bridges strategy (hunkTexts edits) expected output.text := by
  refine ⟨⟨script (lines expected) (lines output.text),
    ⟨source_script _ _, target_script _ _, fun _ => script_shortest⟩, ?_,
    bridges_hunkTexts hdiffers (source_script _ _) (target_script _ _) strategy⟩,
    fun edits hsource htarget => bridges_hunkTexts hdiffers hsource htarget strategy⟩
  have hcomparison : (Run.ofOutput scenario strategy output).comparison = .differs := by
    simp [Run.ofOutput, Comparison.ofOutput, hexpected, hcompleted, hdiffers]
  have hdiff : diff? scenario (.ofOutput scenario strategy output) =
      some (diffText strategy (hunkTexts (script (lines expected) (lines output.text)))) := by
    rw [diff?, hcomparison, hexpected, ← diffText_eq, ← unified_eq hdiffers.symm]
    rfl
  rw [files, hdiff]
  exact List.mem_append_right _ List.mem_cons_self

theorem diff_leads_to_unended_output :
    let scenario : Scenario := ⟨"S", .success, "", "", "", some "a\n", none⟩
    let output : Output := .success "b"
    output.status.completed = true ∧ output.text ≠ "a\n" ∧
      ("A.diff", "--- expected\n+++ A\n@@ -1 +1 @@\n-a\n+b\n\\ No newline at end of file\n") ∈
        files scenario (.ofOutput scenario "A" output) ∧
      ∃ edits, IsShortest edits "a\n" "b" ∧ ("A.diff", diffText "A" (hunkTexts edits)) ∈
          files scenario (.ofOutput scenario "A" output) ∧
        Bridges "A" (hunkTexts edits) "a\n" "b" := by
  intro scenario output
  have hexpected : scenario.expected = some "a\n" := rfl
  have hdiffers : output.text ≠ "a\n" := by decide
  exact ⟨rfl, hdiffers, by decide +kernel, (diff_leads_to_output hexpected rfl hdiffers "A").1⟩

end MergeTrial.Artifacts
