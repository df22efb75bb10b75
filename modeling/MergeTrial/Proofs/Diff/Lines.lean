import MergeTrial.Diff.Lines

/-! Lines of texts that are put together: a line that is ended is followed by the lines of the rest,
unless its carriage return and a line feed become one ending. -/

namespace MergeTrial.Diff
variable {cs ds start rest : List Char} {c : Char} {line text : String}

def Unbroken (cs : List Char) : Prop := ∀ c ∈ cs, c ≠ '\n' ∧ c ≠ '\r'

instance : Decidable (Unbroken cs) :=
  List.decidableBAll (fun c => c ≠ '\n' ∧ c ≠ '\r') cs

theorem unbroken_nil : Unbroken [] := List.forall_mem_nil _

theorem Unbroken.append (hcs : Unbroken cs) (hds : Unbroken ds) : Unbroken (cs ++ ds) :=
  List.forall_mem_append.2 ⟨hcs, hds⟩

inductive IsEnding : List Char → Prop
  | feed : IsEnding ['\n']
  | carriage : IsEnding ['\r']
  | both : IsEnding ['\r', '\n']

def Ended (cs : List Char) : Prop :=
  ∃ body ending, cs = body ++ ending ∧ Unbroken body ∧ IsEnding ending

theorem Ended.prepend (h : Ended cs) (hds : Unbroken ds) : Ended (ds ++ cs) := by
  obtain ⟨body, ending, rfl, hbody, hending⟩ := h
  exact ⟨ds ++ body, ending, (List.append_assoc ..).symm, hds.append hbody, hending⟩

theorem ended_feed (h : Unbroken cs) : Ended (cs ++ ['\n']) := ⟨cs, _, rfl, h, .feed⟩

theorem linesFrom_unbroken (h : Unbroken cs) (start rest : List Char) :
    linesFrom start (cs ++ rest) = linesFrom (cs.reverse ++ start) rest := by
  induction cs generalizing start with
  | nil => rfl
  | cons c cs ih =>
    obtain ⟨⟨hfeed, hcarriage⟩, hcs⟩ := List.forall_mem_cons.1 h
    rw [List.cons_append, linesFrom, ih hcs, List.reverse_cons, List.append_assoc]
    · rfl
    all_goals simp_all

theorem linesFrom_ended (h : Ended cs) (hrest : rest.head? ≠ some '\n') (start : List Char) :
    linesFrom start (cs ++ rest) = (start.reverse ++ cs) :: linesFrom [] rest := by
  obtain ⟨body, ending, rfl, hbody, hending⟩ := h
  rw [List.append_assoc, linesFrom_unbroken hbody]
  cases hending with
  | feed => simp [linesFrom]
  | both => simp [linesFrom]
  | carriage =>
    rw [List.singleton_append, linesFrom]
    · simp
    · rintro more rfl
      exact hrest rfl

theorem isLine_of_mem_linesFrom (hstart : Unbroken start) :
    ∀ line ∈ linesFrom start cs, Ended line ∨ Unbroken line := by
  have hreverse : ∀ {start : List Char}, Unbroken start → Unbroken start.reverse :=
    fun h c hc => h c (List.mem_reverse.1 hc)
  have hcons : ∀ {start rest ending : List Char}, Unbroken start → IsEnding ending →
      (∀ line ∈ linesFrom [] rest, Ended line ∨ Unbroken line) →
      ∀ line ∈ (start.reverse ++ ending) :: linesFrom [] rest, Ended line ∨ Unbroken line :=
    fun hstart hending hrest => List.forall_mem_cons.2
      ⟨Or.inl ⟨_, _, rfl, hreverse hstart, hending⟩, hrest⟩
  fun_induction linesFrom start cs with
  | case1 start h => exact List.forall_mem_nil _
  | case2 start h => exact List.forall_mem_singleton.2 (Or.inr (hreverse hstart))
  | case3 start rest ih => simpa using hcons hstart .both (ih unbroken_nil)
  | case4 start rest _ ih => simpa using hcons hstart .carriage (ih unbroken_nil)
  | case5 start rest ih => simpa using hcons hstart .feed (ih unbroken_nil)
  | case6 start c rest _ hcarriage hfeed ih =>
    exact ih (List.forall_mem_cons.2 ⟨⟨hfeed, hcarriage⟩, hstart⟩)

theorem isEnded_of_ended (h : Ended line.toList) : isEnded line = true := by
  obtain ⟨body, ending, hline, -, hending⟩ := h
  cases hending <;> simp [isEnded, hline]

theorem not_isEnded_of_unbroken (h : Unbroken line.toList) : isEnded line = false := by
  rw [isEnded]
  split
  · next c hlast =>
    obtain ⟨hfeed, hcarriage⟩ := h c (List.mem_of_getLast? hlast)
    simp [hfeed, hcarriage]
  · rfl

def IsLine (line : String) : Prop := Ended line.toList ∨ Unbroken line.toList

theorem isLine_of_mem_lines (h : line ∈ lines text) : IsLine line := by
  obtain ⟨cs, hcs, rfl⟩ := List.mem_map.1 h
  rw [IsLine, String.toList_ofList]
  exact isLine_of_mem_linesFrom unbroken_nil cs hcs

theorem lines_append (h : Ended line.toList) (htext : text.toList.head? ≠ some '\n') :
    lines (line ++ text) = line :: lines text := by
  rw [lines, String.toList_append, linesFrom_ended h htext]
  simp [lines]

end MergeTrial.Diff
