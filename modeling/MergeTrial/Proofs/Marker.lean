import MergeTrial.Marker

/-! Where the markers of a text stand: at its very beginning or directly after a line feed. -/

namespace MergeTrial.Marker
variable {marker cs : List Char}

def AfterFeed (cs rest : List Char) : Prop := ∃ before, cs = before ++ '\n' :: rest

theorem afterFeed_cons_iff {c : Char} {rest : List Char} :
    AfterFeed (c :: cs) rest ↔ (c = '\n' ∧ cs = rest) ∨ AfterFeed cs rest := by
  constructor
  · rintro ⟨before, h⟩
    cases before with
    | nil => exact Or.inl (List.cons.inj h)
    | cons d before => exact Or.inr ⟨before, (List.cons.inj h).2⟩
  · rintro (⟨rfl, rfl⟩ | ⟨before, rfl⟩)
    · exact ⟨[], rfl⟩
    · exact ⟨c :: before, rfl⟩

theorem not_afterFeed_nil {rest : List Char} : ¬AfterFeed [] rest :=
  fun ⟨_, h⟩ => List.append_ne_nil_of_right_ne_nil _ (List.cons_ne_nil _ _) h.symm

def Begins (cs : List Char) : Prop := ∃ marker ∈ all, marker.toList <+: cs

def Marked (text : String) : Prop :=
  Begins text.toList ∨ ∃ rest, AfterFeed text.toList rest ∧ Begins rest

theorem opens_iff : opens cs = true ↔ Begins cs := by
  simp [opens, Begins]

theorem not_begins_nil : ¬Begins [] := by
  rw [← opens_iff]
  decide

theorem not_mem_of_mem_all {c : Char} (hc : c = '\n' ∨ c = '\r') {marker : String}
    (h : marker ∈ all) : c ∉ marker.toList := by
  have hall : ∀ marker ∈ all, '\n' ∉ marker.toList ∧ '\r' ∉ marker.toList := by decide
  rcases hc with rfl | rfl
  · exact (hall marker h).1
  · exact (hall marker h).2

theorem prefix_append_cons_iff {line rest : List Char} {c : Char} (hc : c ∉ marker) :
    marker <+: line ++ c :: rest ↔ marker <+: line := by
  induction line generalizing marker with
  | nil =>
    cases marker with
    | nil => simp
    | cons d marker =>
      have hne : d ≠ c := fun h => hc (h ▸ List.mem_cons_self)
      simp [List.cons_prefix_cons, hne]
  | cons e line ih =>
    cases marker with
    | nil => simp
    | cons d marker =>
      rw [List.cons_append, List.cons_prefix_cons, List.cons_prefix_cons,
        ih fun h => hc (List.mem_cons_of_mem d h)]

theorem begins_append_cons_iff {line rest : List Char} {c : Char} (hc : c = '\n' ∨ c = '\r') :
    Begins (line ++ c :: rest) ↔ Begins line :=
  exists_congr fun _ =>
    and_congr_right fun hmem => prefix_append_cons_iff (not_mem_of_mem_all hc hmem)

theorem anyLine_opens_iff (start cs : List Char) : anyLine opens start cs = true ↔
    Begins (start.reverse ++ cs) ∨ ∃ rest, AfterFeed cs rest ∧ Begins rest := by
  -- `start` is what has been read of the line, from its end
  fun_induction anyLine opens start cs with
  | case1 start =>
    have hnone : ¬∃ rest, AfterFeed [] rest ∧ Begins rest := fun ⟨_, h, _⟩ => not_afterFeed_nil h
    rw [List.append_nil, Bool.and_eq_true, opens_iff]
    refine ⟨fun h => Or.inl h.2, fun h => ?_⟩
    have hbegins := h.resolve_right hnone
    cases start with
    | nil => exact absurd hbegins not_begins_nil
    | cons => exact ⟨rfl, hbegins⟩
  | case2 start rest ih =>
    rw [Bool.or_eq_true, opens_iff, ih, begins_append_cons_iff (Or.inr rfl), List.reverse_nil,
      List.nil_append]
    simp [afterFeed_cons_iff, or_and_right, exists_or]
  | case3 start rest ih =>
    rw [Bool.or_eq_true, opens_iff, ih, begins_append_cons_iff (Or.inl rfl), List.reverse_nil,
      List.nil_append]
    simp [afterFeed_cons_iff, or_and_right, exists_or]
  | case4 start c rest _ hfeed ih =>
    have hne : c ≠ '\n' := hfeed
    rw [ih, List.reverse_cons, List.append_assoc, List.singleton_append]
    simp only [afterFeed_cons_iff, hne, false_and, false_or]

theorem occursIn_iff (text : String) : occursIn text = true ↔ Marked text :=
  anyLine_opens_iff [] text.toList

theorem afterFeed_append_iff {before after rest : List Char} :
    AfterFeed (before ++ after) rest ↔
      (∃ more, AfterFeed before more ∧ rest = more ++ after) ∨ AfterFeed after rest := by
  induction before with
  | nil => simp [not_afterFeed_nil]
  | cons c before ih =>
    rw [List.cons_append, afterFeed_cons_iff, ih]
    simp only [afterFeed_cons_iff, or_and_right, exists_or, and_assoc, exists_and_left,
      exists_eq_left', or_assoc]
    exact or_congr_left (and_congr_right fun _ => eq_comm)

theorem AfterFeed.feed_mem {rest : List Char} (h : AfterFeed cs rest) : '\n' ∈ cs := by
  obtain ⟨before, rfl⟩ := h
  exact List.mem_append_right before List.mem_cons_self

theorem Begins.append (h : Begins cs) (more : List Char) : Begins (cs ++ more) := by
  obtain ⟨marker, hmem, hbegins⟩ := h
  exact ⟨marker, hmem, hbegins.trans (List.prefix_append cs more)⟩

/-- What stands before a character that no marker has is marked or not whatever follows. -/
theorem marked_append_cons_iff {c : Char} (hc : c = '\n' ∨ c = '\r') {front back text : String}
    (htext : text.toList = front.toList ++ c :: back.toList) : Marked text ↔
      Marked front ∨ ∃ rest, AfterFeed (c :: back.toList) rest ∧ Begins rest := by
  have hfront : (∃ rest, (∃ more, AfterFeed front.toList more ∧ rest = more ++ c :: back.toList) ∧
      Begins rest) ↔ ∃ more, AfterFeed front.toList more ∧ Begins more := by
    constructor
    · rintro ⟨_, ⟨more, hmore, rfl⟩, hbegins⟩
      exact ⟨more, hmore, (begins_append_cons_iff hc).1 hbegins⟩
    · rintro ⟨more, hmore, hbegins⟩
      exact ⟨_, ⟨more, hmore, rfl⟩, (begins_append_cons_iff hc).2 hbegins⟩
  rw [Marked, htext, begins_append_cons_iff hc]
  simp only [afterFeed_append_iff, or_and_right, exists_or]
  rw [hfront, Marked, or_assoc]

theorem marked_append_feed_iff (front back : String) :
    Marked (front ++ "\n" ++ back) ↔ Marked front ∨ Marked back := by
  have htext : (front ++ "\n" ++ back).toList = front.toList ++ '\n' :: back.toList := by simp
  rw [marked_append_cons_iff (Or.inl rfl) htext]
  simp [Marked, afterFeed_cons_iff, or_and_right, exists_or]

theorem marked_append_return_iff {front back : String} (h : '\n' ∉ back.toList) :
    Marked (front ++ "\r" ++ back) ↔ Marked front := by
  have htext : (front ++ "\r" ++ back).toList = front.toList ++ '\r' :: back.toList := by simp
  rw [marked_append_cons_iff (Or.inr rfl) htext]
  refine or_iff_left ?_
  rintro ⟨rest, hafter, -⟩
  rcases List.mem_cons.1 hafter.feed_mem with hfeed | hfeed
  · exact absurd hfeed (by decide)
  · exact h hfeed

theorem Marked.append {text : String} (h : Marked text) (more : String) :
    Marked (text ++ more) := by
  rw [Marked, String.toList_append]
  rcases h with hbegins | ⟨rest, hafter, hbegins⟩
  · exact Or.inl (hbegins.append _)
  · exact Or.inr ⟨_, afterFeed_append_iff.2 (Or.inl ⟨rest, hafter, rfl⟩), hbegins.append _⟩

/-- The marker stands at the beginning of the text or directly after a line feed. -/
def StandsIn (marker text : String) : Prop :=
  ∃ before after, text = before ++ marker ++ after ∧
    (before = "" ∨ ∃ above, before = above ++ "\n")

theorem marked_iff_standsIn {text : String} :
    Marked text ↔ ∃ marker ∈ all, StandsIn marker text := by
  constructor
  · rintro (⟨marker, hmem, after, h⟩ | ⟨_, ⟨before, hfeed⟩, marker, hmem, after, rfl⟩)
    · refine ⟨marker, hmem, "", .ofList after, ?_, Or.inl rfl⟩
      simp [← String.toList_inj, h]
    · refine ⟨marker, hmem, .ofList before ++ "\n", .ofList after, ?_, Or.inr ⟨_, rfl⟩⟩
      simp [← String.toList_inj, hfeed]
  · rintro ⟨marker, hmem, before, after, rfl, hbefore⟩
    have hbegins : Begins (marker.toList ++ after.toList) :=
      ⟨marker, hmem, List.prefix_append _ _⟩
    rcases hbefore with rfl | ⟨above, rfl⟩
    · exact Or.inl (by simpa using hbegins)
    · exact Or.inr ⟨_, ⟨above.toList, by simp⟩, hbegins⟩

/-- Reading a text line by line finds the markers that begin the text or follow a line feed. So
texts on lines of their own are looked through apart, a carriage return alone opens no line, and
what is added at the end hides nothing. -/
theorem occursIn_by_position :
    (all.length = 4 ∧ ∀ marker ∈ all, marker.length = 7) ∧
    (∀ text, occursIn text = true ↔ ∃ marker ∈ all, StandsIn marker text) ∧
    (∀ a b, occursIn (a ++ "\n" ++ b) = (occursIn a || occursIn b)) ∧
    (∀ a b, occursIn (a ++ "\r\n" ++ b) = (occursIn a || occursIn b)) ∧
    (∀ a b, '\n' ∉ b.toList → occursIn (a ++ "\r" ++ b) = occursIn a) ∧
    ∀ a b, occursIn a = true → occursIn (a ++ b) = true := by
  have hfeed : ∀ a b, occursIn (a ++ "\n" ++ b) = (occursIn a || occursIn b) := by
    intro a b
    rw [Bool.eq_iff_iff, Bool.or_eq_true]
    simp only [occursIn_iff, marked_append_feed_iff]
  have hreturn : ∀ a b, '\n' ∉ b.toList → occursIn (a ++ "\r" ++ b) = occursIn a := by
    intro a b h
    rw [Bool.eq_iff_iff, occursIn_iff, occursIn_iff, marked_append_return_iff h]
  refine ⟨by decide, fun text => (occursIn_iff text).trans marked_iff_standsIn, hfeed, ?_,
    hreturn, ?_⟩
  · intro a b
    have hsplit : a ++ "\r\n" ++ b = a ++ "\r" ++ "" ++ "\n" ++ b := by
      simp [← String.toList_inj]
    rw [hsplit, hfeed, hreturn a "" (by simp)]
  · intro a b
    rw [occursIn_iff, occursIn_iff]
    exact fun h => h.append b

theorem returnedText_occursIn : '\n' ∉ ">>>>>>>".toList ∧
    occursIn ("a" ++ "\r" ++ ">>>>>>>") = false ∧
    occursIn ("a" ++ "\r\n" ++ ">>>>>>>") = true := by
  obtain ⟨-, -, -, hboth, hreturn, -⟩ := occursIn_by_position
  have hplain : '\n' ∉ ">>>>>>>".toList := by decide
  exact ⟨hplain, (hreturn "a" _ hplain).trans (by decide),
    (hboth "a" ">>>>>>>").trans (by decide)⟩

end MergeTrial.Marker
