import Mathlib.Data.List.TakeWhile
import MergeTrial.Proofs.Diff.Hunks
import MergeTrial.Proofs.Diff.Lines

/-! The hunks that a diff is read as are those that it was printed from. -/

namespace MergeTrial.Diff.Patch

section Headers

theorem isDigit_of_mem_toString {n : Nat} {c : Char} (h : c ∈ (toString n).toList) :
    c.isDigit = true := by
  rw [Nat.toString_eq_repr, Nat.toList_repr] at h
  exact Nat.isDigit_of_mem_toDigits (by decide) (by decide) h

theorem number?_toString (n : Nat) : number? (toString n).toList = some n := by
  have hdigits : (toString n).toList.all Char.isDigit = true :=
    List.all_eq_true.2 fun c hc => isDigit_of_mem_toString hc
  have hempty : (toString n).toList.isEmpty = false := by
    rw [List.isEmpty_eq_false_iff, Nat.toString_eq_repr, Nat.toList_repr]
    exact Nat.toDigits_ne_nil
  have hvalue : (toString n).toList.foldl (fun n c => n * 10 + (c.toNat - 48)) 0 =
      Nat.ofDigitChars 10 (toString n).toList 0 := by
    simp only [Nat.mul_comm _ 10]
    rfl
  rw [number?, hempty, hdigits, hvalue, Nat.toString_eq_repr, Nat.toList_repr,
    Nat.ofDigitChars_ten_toDigits]
  rfl

theorem ne_of_isDigit {c sep : Char} (hc : c.isDigit = true) (hsep : sep.isDigit = false) :
    c ≠ sep := by
  rintro rfl
  exact nomatch hsep.symm.trans hc

theorem ne_comma_of_mem_toString (n : Nat) : ∀ c ∈ (toString n).toList, (c != ',') = true :=
  fun _ hc => bne_iff_ne.2 (ne_of_isDigit (isDigit_of_mem_toString hc) (by decide))

theorem split_at {cs : List Char} {sep : Char} (h : ∀ c ∈ cs, (c != sep) = true)
    (rest : List Char) : (cs ++ sep :: rest).takeWhile (· != sep) = cs ∧
      (cs ++ sep :: rest).dropWhile (· != sep) = sep :: rest := by
  rw [List.takeWhile_append_of_pos h, List.dropWhile_append_of_pos h]
  simp

theorem range?_single (first : Nat) : range? (toString first).toList = some (first - 1, 1) := by
  have hdigits := ne_comma_of_mem_toString first
  rw [range?, List.takeWhile_eq_self_iff.2 hdigits, List.dropWhile_eq_nil_iff.2 hdigits,
    number?_toString]
  rfl

theorem range?_pair (first length : Nat) :
    range? ((toString first).toList ++ ',' :: (toString length).toList) =
      some (if length = 0 then (first, 0) else (first - 1, length)) := by
  obtain ⟨htake, hdrop⟩ := split_at (ne_comma_of_mem_toString first)
    (toString length).toList
  rw [range?, htake, hdrop, number?_toString]
  simp only [Option.bind_eq_bind, Option.bind_some, number?_toString]
  cases length <;> rfl

theorem range?_rangeText (start length : Nat) :
    range? (rangeText start length).toList = some (start, length) := by
  rw [rangeText]
  split
  · next hone => rw [range?_single, hone, Nat.add_sub_cancel]
  · split
    · next hzero =>
      subst hzero
      exact (congrArg range? (String.toList_append ..)).trans (range?_pair start 0)
    · next hzero =>
      have hpair := range?_pair (start + 1) length
      rw [if_neg hzero, Nat.add_sub_cancel] at hpair
      rw [← hpair, String.toList_append, String.toList_append, List.append_assoc]
      rfl

theorem mem_rangeText {start length : Nat} :
    ∀ c ∈ (rangeText start length).toList, c.isDigit = true ∨ c = ',' := by
  have hdigits : ∀ (n : Nat), ∀ c ∈ (toString n).toList, c.isDigit = true ∨ c = ',' :=
    fun n c hc => Or.inl (isDigit_of_mem_toString hc)
  rw [rangeText]
  split
  · exact hdigits _
  · split
    · rw [String.toList_append]
      exact List.forall_mem_append.2 ⟨hdigits _, by simp⟩
    · rw [String.toList_append, String.toList_append]
      exact List.forall_mem_append.2 ⟨List.forall_mem_append.2 ⟨hdigits _, by simp⟩, hdigits _⟩

theorem ne_of_mem_rangeText {start length : Nat} {sep : Char} (hsep : sep.isDigit = false)
    (hcomma : sep ≠ ',') : ∀ c ∈ (rangeText start length).toList, c ≠ sep := by
  intro c hc
  rcases mem_rangeText c hc with hdigit | rfl
  · exact ne_of_isDigit hdigit hsep
  · exact hcomma.symm

theorem ne_space_of_mem_rangeText {start length : Nat} :
    ∀ c ∈ (rangeText start length).toList, (c != ' ') = true :=
  fun c hc => bne_iff_ne.2 (ne_of_mem_rangeText (by decide) (by decide) c hc)

theorem unbroken_rangeText (start length : Nat) : Unbroken (rangeText start length).toList :=
  fun c hc => ⟨ne_of_mem_rangeText (by decide) (by decide) c hc,
    ne_of_mem_rangeText (by decide) (by decide) c hc⟩

def headerText (h : Hunk String) : String :=
  "@@ -" ++ rangeText h.sourceStart (source h.edits).length
    ++ " +" ++ rangeText h.targetStart (target h.edits).length ++ " @@\n"

theorem toList_headerText (h : Hunk String) : (headerText h).toList = '@' :: '@' :: ' ' :: '-' ::
    ((rangeText h.sourceStart (source h.edits).length).toList ++ ' ' :: '+' ::
      ((rangeText h.targetStart (target h.edits).length).toList ++ ' ' :: ['@', '@', '\n'])) := by
  simp [headerText]

theorem header?_headerText (h : Hunk String) : header? (headerText h) =
    some ((h.sourceStart, (source h.edits).length), (h.targetStart, (target h.edits).length)) := by
  rw [header?, toList_headerText]
  simp only [split_at ne_space_of_mem_rangeText, range?_rangeText]
  rfl

theorem ended_headerText (h : Hunk String) : Ended (headerText h).toList := by
  have hbody : Unbroken " @@".toList := by decide
  have hclosing : Ended " @@\n".toList := ended_feed hbody
  simp only [headerText, String.toList_append, List.append_assoc]
  exact (((hclosing.prepend (unbroken_rangeText _ _)).prepend (by decide)).prepend
    (unbroken_rangeText _ _)).prepend (by decide)

end Headers

section Lines
variable {hunk : Hunk String} {hs : List (Hunk String)} {line rest : String}
  {lacksSource lacksTarget lackSource lackTarget : Nat}

def notice : String := "\\ No newline at end of file\n"

theorem readLine_notice (r : Reading) :
    readLine r notice = (unend r.hunks).map fun hunks => { r with hunks := hunks } :=
  if_pos (by decide)

theorem dropEnding_append (line : String) : dropEnding (line ++ "\n") = line := by
  rw [dropEnding, String.toList_append]
  simp

theorem foldlM_lineText {sign : String} {make : String → Edit String} (hline : IsLine line)
    (hrest : rest.toList.head? ≠ some '\n') (hsign : Unbroken sign.toList)
    (hread : ∀ line, readLine ⟨hunk :: hs, lacksSource, lacksTarget⟩ (sign ++ line) =
      some ⟨{ hunk with edits := make line :: hunk.edits } :: hs, lackSource, lackTarget⟩)
    (hunend : ∀ line, unend ({ hunk with edits := make line :: hunk.edits } :: hs) =
      some ({ hunk with edits := make (dropEnding line) :: hunk.edits } :: hs)) :
    (lines (lineText sign line ++ rest)).foldlM readLine ⟨hunk :: hs, lacksSource, lacksTarget⟩ =
      (lines rest).foldlM readLine
        ⟨{ hunk with edits := make line :: hunk.edits } :: hs, lackSource, lackTarget⟩ := by
  rcases hline with hended | hunbroken
  · have hsigned : Ended (sign ++ line).toList := by
      rw [String.toList_append]
      exact hended.prepend hsign
    rw [lineText, isEnded_of_ended hended, if_pos rfl, String.append_empty,
      lines_append hsigned hrest, List.foldlM_cons, hread]
    rfl
  · have hsigned : Ended (sign ++ (line ++ "\n")).toList := by
      rw [String.toList_append, String.toList_append]
      exact (ended_feed hunbroken).prepend hsign
    have hbody : Unbroken "\\ No newline at end of file".toList := by decide
    have hnotice : Ended notice.toList := ended_feed hbody
    have hsplit : lineText sign line ++ rest = sign ++ (line ++ "\n") ++ (notice ++ rest) := by
      have hparts : noEnding = "\n" ++ notice := rfl
      simp [lineText, not_isEnded_of_unbroken hunbroken, hparts, String.append_assoc]
    have hhead : (notice ++ rest).toList.head? = some '\\' := by
      rw [String.toList_append]
      rfl
    have hnext : (notice ++ rest).toList.head? ≠ some '\n' := hhead ▸ by decide
    rw [hsplit, lines_append hsigned hnext, lines_append hnotice hrest, List.foldlM_cons, hread]
    simp only [Option.bind_eq_bind, Option.bind_some, List.foldlM_cons, readLine_notice, hunend,
      dropEnding_append, Option.map_some]

theorem readLine_edit {e : Edit String} {text : String} (hhead : text.toList.head? ≠ some '\\')
    (hedit : edit? text = some e) (hsource : (source [e]).length ≤ lacksSource)
    (htarget : (target [e]).length ≤ lacksTarget) :
    readLine ⟨hunk :: hs, lacksSource, lacksTarget⟩ text =
      some ⟨{ hunk with edits := e :: hunk.edits } :: hs, lacksSource - (source [e]).length,
        lacksTarget - (target [e]).length⟩ := by
  have hcounts : (if e.source?.isSome then 1 else 0) = (source [e]).length ∧
      (if e.target?.isSome then 1 else 0) = (target [e]).length := by
    cases e <;> exact ⟨rfl, rfl⟩
  have hlacks : ¬(lacksSource = 0 ∧ lacksTarget = 0) := by
    cases e <;> simp at hsource htarget <;> omega
  rw [readLine, if_neg hhead, if_neg hlacks, hedit, Option.bind_some]
  simp only [addEdit, hcounts]
  exact if_neg (by omega)

theorem foldlM_editText {e : Edit String} (hline : ∀ line ∈ source [e] ++ target [e], IsLine line)
    (hrest : rest.toList.head? ≠ some '\n') (hsource : (source [e]).length ≤ lacksSource)
    (htarget : (target [e]).length ≤ lacksTarget) :
    (lines (editText e ++ rest)).foldlM readLine ⟨hunk :: hs, lacksSource, lacksTarget⟩ =
      (lines rest).foldlM readLine ⟨{ hunk with edits := e :: hunk.edits } :: hs,
        lacksSource - (source [e]).length, lacksTarget - (target [e]).length⟩ := by
  cases e with
  | keep line =>
    refine foldlM_lineText (hline line (by simp)) hrest (by decide) (fun line => ?_) fun _ => rfl
    exact readLine_edit (by simp) (by simp [edit?]) hsource htarget
  | delete line =>
    refine foldlM_lineText (hline line (by simp)) hrest (by decide) (fun line => ?_) fun _ => rfl
    exact readLine_edit (by simp) (by simp [edit?]) hsource htarget
  | insert line =>
    refine foldlM_lineText (hline line (by simp)) hrest (by decide) (fun line => ?_) fun _ => rfl
    exact readLine_edit (by simp) (by simp [edit?]) hsource htarget

theorem head_editTexts (edits : List (Edit String)) (hrest : rest.toList.head? ≠ some '\n') :
    (String.join (edits.map editText) ++ rest).toList.head? ≠ some '\n' := by
  cases edits with
  | nil => simpa using hrest
  | cons e edits => cases e <;> simp [String.join_cons, editText, lineText]

theorem foldlM_editTexts {edits : List (Edit String)}
    (hlines : ∀ line ∈ source edits ++ target edits, IsLine line)
    (hrest : rest.toList.head? ≠ some '\n') :
    (lines (String.join (edits.map editText) ++ rest)).foldlM readLine
        ⟨hunk :: hs, (source edits).length, (target edits).length⟩ =
      (lines rest).foldlM readLine
        ⟨{ hunk with edits := edits.reverse ++ hunk.edits } :: hs, 0, 0⟩ := by
  induction edits generalizing hunk with
  | nil => simp
  | cons e edits ih =>
    have hsource : source (e :: edits) = source [e] ++ source edits := @source_append _ [e] edits
    have htarget : target (e :: edits) = target [e] ++ target edits := @target_append _ [e] edits
    rw [hsource, htarget] at hlines ⊢
    simp only [List.forall_mem_append] at hlines
    obtain ⟨⟨hdeleted, hsources⟩, hinserted, htargets⟩ := hlines
    rw [List.map_cons, String.join_cons, String.append_assoc,
      foldlM_editText (List.forall_mem_append.2 ⟨hdeleted, hinserted⟩)
        (head_editTexts edits hrest) (by simp) (by simp)]
    simp only [List.length_append, Nat.add_sub_cancel_left]
    rw [ih (List.forall_mem_append.2 ⟨hsources, htargets⟩)]
    simp

theorem foldlM_hunkText (h : Hunk String)
    (hlines : ∀ line ∈ source h.edits ++ target h.edits, IsLine line)
    (hrest : rest.toList.head? ≠ some '\n') :
    (lines (hunkText h ++ rest)).foldlM readLine ⟨hs, 0, 0⟩ =
      (lines rest).foldlM readLine ⟨{ h with edits := h.edits.reverse } :: hs, 0, 0⟩ := by
  have htext : hunkText h ++ rest =
      headerText h ++ (String.join (h.edits.map editText) ++ rest) := by
    rw [← String.append_assoc]
    rfl
  have hheader : readLine ⟨hs, 0, 0⟩ (headerText h) =
      some ⟨⟨h.sourceStart, h.targetStart, []⟩ :: hs, (source h.edits).length,
        (target h.edits).length⟩ := by
    rw [readLine, if_neg (by simp [toList_headerText]), if_pos ⟨rfl, rfl⟩, header?_headerText]
    rfl
  rw [htext, lines_append (ended_headerText h) (head_editTexts _ hrest), List.foldlM_cons, hheader]
  have hedits := @foldlM_editTexts ⟨h.sourceStart, h.targetStart, []⟩ hs rest _ hlines hrest
  rw [List.append_nil] at hedits
  exact hedits

theorem head_hunkTexts (hs : List (Hunk String)) :
    (String.join (hs.map hunkText)).toList.head? ≠ some '\n' := by
  cases hs with
  | nil => exact nofun
  | cons h hs => simp [String.join_cons, hunkText]

theorem foldlM_hunkTexts (more : List (Hunk String))
    (hlines : ∀ h ∈ more, ∀ line ∈ source h.edits ++ target h.edits, IsLine line) :
    (lines (String.join (more.map hunkText))).foldlM readLine ⟨hs, 0, 0⟩ =
      some ⟨(more.map fun h => { h with edits := h.edits.reverse }).reverse ++ hs, 0, 0⟩ := by
  induction more generalizing hs with
  | nil => rfl
  | cons h more ih =>
    obtain ⟨hhere, hmore⟩ := List.forall_mem_cons.1 hlines
    rw [List.map_cons, String.join_cons, foldlM_hunkText h hhere (head_hunkTexts more), ih hmore]
    simp

end Lines

theorem body_of_hunk {line : String} (hhead : line.toList.head? = some '@')
    (rest : List String) : body (line :: rest) = line :: rest := by
  obtain ⟨cs, hcs⟩ := List.head?_eq_some_iff.1 hhead
  cases rest with
  | nil => rfl
  | cons second rest => simp [body, hcs]

theorem body_hunkTexts (hs : List (Hunk String)) :
    body (lines (String.join (hs.map hunkText))) = lines (String.join (hs.map hunkText)) := by
  cases hs with
  | nil => rfl
  | cons h hs =>
    have htext : String.join ((h :: hs).map hunkText) = headerText h ++
        (String.join (h.edits.map editText) ++ String.join (hs.map hunkText)) := by
      rw [List.map_cons, String.join_cons, ← String.append_assoc]
      rfl
    rw [htext, lines_append (ended_headerText h) (head_editTexts _ (head_hunkTexts hs))]
    exact body_of_hunk (by simp [toList_headerText]) _

theorem hunks?_hunkTexts {hs : List (Hunk String)}
    (hlines : ∀ h ∈ hs, ∀ line ∈ source h.edits ++ target h.edits, IsLine line) :
    hunks? (String.join (hs.map hunkText)) = some hs := by
  rw [hunks?, body_hunkTexts, foldlM_hunkTexts hs hlines]
  refine congrArg some ?_
  simp [Function.comp_def]

theorem hunks?_named {sourceName targetName : String} (hsource : Unbroken sourceName.toList)
    (htarget : Unbroken targetName.toList) (hs : List (Hunk String)) :
    hunks? ("--- " ++ sourceName ++ "\n+++ " ++ targetName ++ "\n" ++
      String.join (hs.map hunkText)) = hunks? (String.join (hs.map hunkText)) := by
  have htext := head_hunkTexts hs
  have hbody := body_hunkTexts hs
  generalize String.join (hs.map hunkText) = text at htext hbody ⊢
  have hfirst : Ended ("--- " ++ sourceName ++ "\n").toList := by
    rw [String.toList_append, String.toList_append]
    exact ended_feed (Unbroken.append (by decide) hsource)
  have hsecond : Ended ("+++ " ++ targetName ++ "\n").toList := by
    rw [String.toList_append, String.toList_append]
    exact ended_feed (Unbroken.append (by decide) htarget)
  have hsplit : "--- " ++ sourceName ++ "\n+++ " ++ targetName ++ "\n" ++ text =
      ("--- " ++ sourceName ++ "\n") ++ (("+++ " ++ targetName ++ "\n") ++ text) := by
    rw [show "\n+++ " = "\n" ++ "+++ " from rfl]
    simp only [String.append_assoc]
  have hnames : body (("--- " ++ sourceName ++ "\n") :: ("+++ " ++ targetName ++ "\n") ::
      lines text) = lines text := by
    simp [body]
  rw [hunks?, hunks?, hbody, hsplit, lines_append hfirst (by simp), lines_append hsecond htext,
    hnames]

end MergeTrial.Diff.Patch
