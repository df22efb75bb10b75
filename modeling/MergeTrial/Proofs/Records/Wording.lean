import Mathlib.Data.List.TakeWhile
import MergeTrial.Proofs.Records.Defects

/-! The wordings under which a record may state how a run ended. All that the format names are
read; but of a note only the blank before it is looked at, so that notes are read which the format
does not know. -/

namespace MergeTrial

namespace Text

theorem firstWord_eq_takeWhile (cs : List Char) :
    firstWord cs = (core cs).takeWhile (!isBlank ·) := by
  obtain ⟨blanks, hsplit, hblanks⟩ := exists_dropBlanksEnd_append (dropBlanks cs)
  have hnone : blanks.takeWhile (!isBlank ·) = [] := by
    cases blanks with
    | nil => rfl
    | cons c rest =>
      rw [List.takeWhile_cons, hblanks c List.mem_cons_self]
      rfl
  rw [firstWord, hsplit, List.takeWhile_append, hnone, ← core]
  split
  · next hall => rw [List.append_nil, List.Sublist.eq_of_length (List.takeWhile_sublist _) hall]
  · rfl

theorem takeWhile_eq_iff {α : Type} {p : α → Bool} {xs word : List α}
    (hword : ∀ x ∈ word, p x = true) :
    xs.takeWhile p = word ↔ xs = word ∨ ∃ x rest, p x = false ∧ xs = word ++ x :: rest := by
  constructor
  · rintro rfl
    have hsplit := List.takeWhile_append_dropWhile (p := p) (l := xs)
    have hhead := List.head?_dropWhile_not p xs
    cases hrest : xs.dropWhile p with
    | nil =>
      rw [hrest, List.append_nil] at hsplit
      exact Or.inl hsplit.symm
    | cons x rest =>
      rw [hrest] at hsplit hhead
      exact Or.inr ⟨x, rest, by simpa using hhead, hsplit.symm⟩
  · rintro (rfl | ⟨x, rest, hx, rfl⟩)
    · exact List.takeWhile_eq_self_iff.2 hword
    · rw [List.takeWhile_append_of_pos hword, List.takeWhile_cons, hx]
      exact List.append_nil _

theorem firstWord_eq_iff {text word : String} (hword : ∀ c ∈ word.toList, isBlank c = false) :
    String.ofList (firstWord text.toList) = word ↔ trim text = word ∨
      ∃ blank note, isBlank blank = true ∧ (trim text).toList = word.toList ++ blank :: note := by
  have hclear : ∀ c ∈ word.toList, (!isBlank c) = true := by
    intro c hc
    rw [hword c hc]
    rfl
  rw [← String.toList_inj, ← String.toList_inj, trim, String.toList_ofList, String.toList_ofList,
    firstWord_eq_takeWhile, takeWhile_eq_iff hclear]
  simp only [Bool.not_eq_false']

end Text

namespace Status
variable {text : String} {s s' : Status}

inductive Spells : String → Status → Prop
  | name (s : Status) : Spells s.name s
  | noOutput : Spells "NO_OUTPUT" .skipped

def mayBeNoted (s : Status) : Prop := s = .conflicts ∨ s = .failed

def ExitNoted (text : String) (s : Status) : Prop :=
  s.mayBeNoted ∧ ∃ code : Int, text = s.name ++ " (exit " ++ toString code ++ ")"

def Noted (text : String) (s : Status) : Prop :=
  s.mayBeNoted ∧ ∃ blank note, Text.isBlank blank = true ∧
    text.toList = s.name.toList ++ blank :: note

/-- The wordings that the format names: the words, and the exit code as a note. -/
def Documented (text : String) (s : Status) : Prop :=
  Spells (Text.trim text) s ∨ ExitNoted (Text.trim text) s

/-- The wordings that are read: the words, and anything as a note. -/
def Accepted (text : String) (s : Status) : Prop :=
  Spells (Text.trim text) s ∨ Noted (Text.trim text) s

theorem ExitNoted.noted (h : ExitNoted text s) : Noted text s := by
  obtain ⟨hnoted, code, rfl⟩ := h
  refine ⟨hnoted, ' ', ['(', 'e', 'x', 'i', 't', ' '] ++ (toString code).toList ++ [')'], rfl, ?_⟩
  simp

theorem Documented.accepted (h : Documented text s) : Accepted text s :=
  h.imp_right ExitNoted.noted

theorem name_not_blank (s : Status) : ∀ c ∈ s.name.toList, Text.isBlank c = false := by
  have hall : (s.name.toList.all fun c => !Text.isBlank c) = true := by cases s <;> decide
  simpa using hall

theorem noOutput_not_blank : ∀ c ∈ "NO_OUTPUT".toList, Text.isBlank c = false := by
  have hall : ("NO_OUTPUT".toList.all fun c => !Text.isBlank c) = true := by decide
  simpa using hall

theorem accepted_of_firstWord (hnoted : s.mayBeNoted)
    (h : String.ofList (Text.firstWord text.toList) = s.name) : Accepted text s := by
  rcases (Text.firstWord_eq_iff s.name_not_blank).1 h with hname | hnote
  · exact Or.inl (hname ▸ .name s)
  · exact Or.inr ⟨hnoted, hnote⟩

theorem accepted_of_ofRecorded? (h : ofRecorded? text = some s) : Accepted text s := by
  simp only [ofRecorded?] at h
  split at h
  · next hword =>
    obtain rfl := Option.some.inj h
    exact accepted_of_firstWord (Or.inl rfl) hword
  · split at h
    · next hword =>
      obtain rfl := Option.some.inj h
      exact accepted_of_firstWord (Or.inr rfl) hword
    · split at h
      · next hwhole =>
        obtain rfl := Option.some.inj h
        exact Or.inl (hwhole ▸ .name .success)
      · split at h
        · next hwhole =>
          obtain rfl := Option.some.inj h
          rcases hwhole with hwhole | hwhole
          · exact Or.inl (hwhole ▸ .name .skipped)
          · exact Or.inl (hwhole ▸ .noOutput)
        · exact nomatch h

theorem ofRecorded?_of_accepted (h : Accepted text s) : ofRecorded? text = some s := by
  rcases h with hspells | ⟨hnoted, hnote⟩
  · generalize hwhole : Text.trim text = word at hspells
    cases hspells with
    | name =>
      have hword := (Text.firstWord_eq_iff s.name_not_blank).2 (Or.inl hwhole)
      rw [ofRecorded?, hword, hwhole]
      cases s <;> rfl
    | noOutput =>
      have hword := (Text.firstWord_eq_iff noOutput_not_blank).2 (Or.inl hwhole)
      rw [ofRecorded?, hword, hwhole]
      rfl
  · have hword := (Text.firstWord_eq_iff s.name_not_blank).2 (Or.inr hnote)
    rw [ofRecorded?, hword]
    rcases hnoted with rfl | rfl <;> rfl

theorem ofRecorded?_eq_some_iff : ofRecorded? text = some s ↔ Accepted text s :=
  ⟨accepted_of_ofRecorded?, ofRecorded?_of_accepted⟩

theorem ofRecorded?_eq_none_iff : ofRecorded? text = none ↔ ¬∃ s, Accepted text s := by
  simp only [← ofRecorded?_eq_some_iff, ← Option.isSome_iff_exists, Option.not_isSome_iff_eq_none]

end Status

namespace RecordedRun

theorem decode_execution (text scenario strategy : String) :
    (⟨some text, none⟩ : RecordedRun).decode scenario strategy =
      match Status.ofRecorded? text with
      | some s => .ok (s, .notComparable)
      | none => .error (.ambiguous scenario strategy (.unknownStatus text)) := by
  rw [decode_eq]
  cases h : Status.ofRecorded? text <;> simp only [readField, h] <;> rfl

theorem accepted_of_decode {run : RecordedRun} {text scenario strategy : String}
    {outcome : Status × Comparison} (hexecution : run.execution = some text)
    (h : run.decode scenario strategy = .ok outcome) : ∃ s, Status.Accepted text s := by
  rw [decode_eq, hexecution] at h
  obtain ⟨status, hstatus, -⟩ := Outcome.bind_eq_ok.1 h
  by_contra hnone
  rw [readField, Status.ofRecorded?_eq_none_iff.2 hnone] at hstatus
  cases hstatus

end RecordedRun

theorem RecordFile.accepted_of_classify {policy : Policy} {file : RecordFile}
    {cs : List Classification} (h : file.classify policy = .ok cs)
    {scenario strategy text : String} {record : Record} {run : RecordedRun}
    (hrecord : NameMap.get? file scenario = some record)
    (hrun : record.runs.get? strategy = some run) (hexecution : run.execution = some text) :
    ∃ s, Status.Accepted text s := by
  have hnone : file.defects = [] := by
    rw [← List.head?_eq_none_iff, ← fault?_classify policy, Outcome.fault?_eq_none_iff]
    exact ⟨cs, h⟩
  obtain ⟨outcome, hdecode⟩ :=
    (defects_eq_nil_iff.1 hnone scenario record hrecord).2 strategy run hrun
  exact RecordedRun.accepted_of_decode hexecution hdecode

/-- An entry that states nothing but how a run ended is decoded exactly if the statement is a word
for a status, blanks around it aside, or one of the two words that may carry a note, followed by a
blank. All wordings that the format names are among these. Every other one is ambiguous, and a
file with such an entry is not classified. -/
theorem decode_exactly_accepted (text scenario strategy : String) :
    (∀ outcome, (⟨some text, none⟩ : RecordedRun).decode scenario strategy = .ok outcome ↔
      ∃ s, Status.Accepted text s ∧ outcome = (s, .notComparable)) ∧
    (∀ fault, (⟨some text, none⟩ : RecordedRun).decode scenario strategy = .error fault ↔
      (¬∃ s, Status.Accepted text s) ∧
        fault = .ambiguous scenario strategy (.unknownStatus text)) ∧
    (∀ s, Status.Documented text s → Status.Accepted text s) ∧
    ∀ policy file record run, NameMap.get? file scenario = some record →
      record.runs.get? strategy = some run → run.execution = some text →
      (¬∃ s, Status.Accepted text s) → ∃ fault, RecordFile.classify policy file = .error fault := by
  refine ⟨fun outcome => ?_, fun fault => ?_, fun s h => h.accepted, ?_⟩
  · rw [RecordedRun.decode_execution]
    simp only [← Status.ofRecorded?_eq_some_iff]
    cases Status.ofRecorded? text <;> simp [eq_comm]
  · rw [RecordedRun.decode_execution, ← Status.ofRecorded?_eq_none_iff]
    cases Status.ofRecorded? text <;> simp [eq_comm]
  · intro policy file record run hrecord hrun hexecution hnone
    cases h : RecordFile.classify policy file with
    | error fault => exact ⟨fault, rfl⟩
    | ok cs => exact absurd (RecordFile.accepted_of_classify h hrecord hrun hexecution) hnone

theorem paddedNote_decode_exactly_accepted :
    (⟨some "\t FAILED (exit -1)\n", none⟩ : RecordedRun).decode "S" "t" =
      .ok (.failed, .notComparable) ∧
    (⟨some "SUCCESS (exit 0)", none⟩ : RecordedRun).decode "S" "t" =
      .error (.ambiguous "S" "t" (.unknownStatus "SUCCESS (exit 0)")) ∧
    ∃ fault, RecordFile.classify .separate (.ofList [("S", ⟨some "SUCCESS",
      .ofList [("t", ⟨some "SUCCESS (exit 0)", some "MATCH"⟩)]⟩)]) = .error fault := by
  have hdocumented : Status.Documented "\t FAILED (exit -1)\n" .failed :=
    Or.inr ⟨Or.inr rfl, -1, by decide⟩
  have hnone : ¬∃ s, Status.Accepted "SUCCESS (exit 0)" s :=
    Status.ofRecorded?_eq_none_iff.1 (by decide)
  obtain ⟨hread, -, haccepted, -⟩ := decode_exactly_accepted "\t FAILED (exit -1)\n" "S" "t"
  obtain ⟨-, hrefused, -, haborts⟩ := decode_exactly_accepted "SUCCESS (exit 0)" "S" "t"
  refine ⟨(hread _).2 ⟨.failed, haccepted _ hdocumented, rfl⟩, (hrefused _).2 ⟨hnone, rfl⟩, ?_⟩
  exact haborts .separate _ _ ⟨some "SUCCESS (exit 0)", some "MATCH"⟩ rfl rfl rfl hnone

theorem strangeNote_decoded :
    (¬∃ s, Status.Documented "CONFLICTS maybe" s) ∧
    (⟨some "CONFLICTS maybe", none⟩ : RecordedRun).decode "S" "t" =
      .ok (.conflicts, .notComparable) := by
  have htrim : Text.trim "CONFLICTS maybe" = "CONFLICTS maybe" := by decide
  refine ⟨?_, by decide⟩
  rintro ⟨s, hspells | ⟨hnoted, code, hnote⟩⟩
  · rw [htrim] at hspells
    generalize hword : "CONFLICTS maybe" = word at hspells
    cases hspells with
    | name => cases s <;> exact absurd hword (by decide)
    | noOutput => exact absurd hword (by decide)
  · -- the note starts with a letter, not with a bracket
    rw [htrim] at hnote
    have hletter := congrArg (fun text => text.toList[10]?) hnote
    have hfirst := congrArg (fun text => text.toList[0]?) hnote
    rcases hnoted with rfl | rfl
    · simp [Status.name] at hletter
    · simp [Status.name] at hfirst

end MergeTrial
