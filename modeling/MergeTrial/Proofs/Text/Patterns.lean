import Mathlib.Data.List.Infix

/-! Patterns in texts: when a text between two others cannot complete one, and what it is to
replace all of them. Replacing one set of patterns after another is replacing both at once, if
what is put in first completes no pattern that comes later. -/

namespace MergeTrial.Text
variable {p q s t x y z text : List Char}

def Agree (s t : List Char) : Prop := s <+: t ∨ t <+: s

instance : Decidable (Agree s t) := inferInstanceAs (Decidable (s <+: t ∨ t <+: s))

def Overhangs (s t : List Char) : Prop := ∃ rest ∈ s.tail.tails, rest ≠ [] ∧ Agree rest t

instance : Decidable (Overhangs s t) :=
  inferInstanceAs (Decidable (∃ rest ∈ s.tail.tails, rest ≠ [] ∧ Agree rest t))

/-- However the texts are laid over each other, they differ somewhere. -/
structure Apart (s t : List Char) : Prop where
  differ : ¬Agree s t
  ahead : ¬Overhangs s t
  behind : ¬Overhangs t s

instance : Decidable (Apart s t) :=
  decidable_of_iff (¬Agree s t ∧ ¬Overhangs s t ∧ ¬Overhangs t s)
    ⟨fun h => ⟨h.1, h.2.1, h.2.2⟩, fun h => ⟨h.differ, h.ahead, h.behind⟩⟩

theorem agree_of_append (h : s ++ x = t ++ y) : Agree s t :=
  List.prefix_or_prefix_of_prefix ⟨x, rfl⟩ ⟨y, h.symm⟩

theorem overhangs_iff : Overhangs s t ↔
    ∃ before rest, before ≠ [] ∧ rest ≠ [] ∧ s = before ++ rest ∧ Agree rest t := by
  constructor
  · rintro ⟨rest, hrest, hne, hagree⟩
    cases s with
    | nil => exact absurd (List.eq_nil_of_suffix_nil ((List.mem_tails rest _).1 hrest)) hne
    | cons c more =>
      obtain ⟨before, rfl⟩ := (List.mem_tails rest more).1 hrest
      exact ⟨c :: before, rest, List.cons_ne_nil c before, hne, rfl, hagree⟩
  · rintro ⟨before, rest, hbefore, hne, rfl, hagree⟩
    obtain ⟨c, before, rfl⟩ := List.exists_cons_of_ne_nil hbefore
    exact ⟨rest, (List.mem_tails rest _).2 (List.suffix_append before rest), hne, hagree⟩

theorem append_eq_append_cases (h : s ++ x = y ++ (t ++ z)) (hover : ¬Overhangs s t) :
    s <+: y ∨ y = [] := by
  rcases List.append_eq_append_iff.1 h with ⟨u, hy, -⟩ | ⟨u, hs, hrest⟩
  · exact Or.inl ⟨u, hy.symm⟩
  · by_cases hy : y = []
    · exact Or.inr hy
    · by_cases hu : u = []
      · subst hu
        exact Or.inl ⟨[], by rw [hs, List.append_nil, List.append_nil]⟩
      · exact absurd (overhangs_iff.2 ⟨y, u, hy, hu, hs, agree_of_append hrest.symm⟩) hover

theorem infix_of_apart (h : Apart p t) (hocc : p <:+: x ++ (t ++ y)) : p <:+: x ∨ p <:+: y := by
  obtain ⟨before, after, heq⟩ := hocc
  rw [List.append_assoc] at heq
  rcases List.append_eq_append_iff.1 heq with ⟨u, hx, hrest⟩ | ⟨u, hbefore, hrest⟩
  · rcases append_eq_append_cases hrest h.ahead with hu | rfl
    · exact Or.inl (hu.isInfix.trans ⟨before, [], by rw [hx, List.append_nil]⟩)
    · have hrest : p ++ after = t ++ y := hrest
      exact absurd (agree_of_append hrest) h.differ
  · rcases append_eq_append_cases hrest h.behind with ⟨w, hu⟩ | rfl
    · subst hu
      rw [List.append_assoc] at hrest
      exact Or.inr ⟨w, after, by rw [List.append_cancel_left hrest, List.append_assoc]⟩
    · have hrest : t ++ y = p ++ after := hrest
      exact absurd (agree_of_append hrest.symm) h.differ

abbrev Slot := List Char × List Char

variable {slots : List Slot} {f g : List Char → List Char}

structure Fills (slots : List Slot) (f : List Char → List Char) : Prop where
  plain : ∀ text, (∀ slot ∈ slots, ¬slot.1 <:+: text) → f text = text
  filled : ∀ slot ∈ slots, ∀ before after,
    f (before ++ (slot.1 ++ after)) = f before ++ (slot.2 ++ f after)

theorem split_induction {motive : List Char → Prop} (hne : ∀ slot ∈ slots, slot.1 ≠ [])
    (plain : ∀ text, (∀ slot ∈ slots, ¬slot.1 <:+: text) → motive text)
    (filled : ∀ slot ∈ slots, ∀ before after, motive before → motive after →
      motive (before ++ (slot.1 ++ after))) (text : List Char) : motive text := by
  induction hlength : text.length using Nat.strong_induction_on generalizing text with
  | _ n ih =>
    by_cases hocc : ∃ slot ∈ slots, slot.1 <:+: text
    · obtain ⟨slot, hslot, before, after, rfl⟩ := hocc
      have hpos := List.length_pos_iff.2 (hne slot hslot)
      simp only [List.length_append] at hlength
      rw [List.append_assoc]
      exact filled slot hslot before after (ih before.length (by omega) before rfl)
        (ih after.length (by omega) after rfl)
    · exact plain text fun slot hslot hfound => hocc ⟨slot, hslot, hfound⟩

namespace Fills

theorem unique (hf : Fills slots f) (hg : Fills slots g) (hne : ∀ slot ∈ slots, slot.1 ≠ [])
    (text : List Char) : f text = g text := by
  induction text using split_induction hne with
  | plain text hnone => rw [hf.plain text hnone, hg.plain text hnone]
  | filled slot hslot before after hbefore hafter =>
    rw [hf.filled slot hslot, hg.filled slot hslot, hbefore, hafter]

theorem append_apart (hf : Fills slots f) (hne : ∀ slot ∈ slots, slot.1 ≠ [])
    (hapart : ∀ slot ∈ slots, Apart slot.1 t) (x y : List Char) :
    f (x ++ (t ++ y)) = f x ++ (t ++ f y) := by
  induction x using split_induction hne with
  | filled slot hslot before after _ hafter =>
    have hwhole := hf.filled slot hslot before (after ++ (t ++ y))
    have hleft := hf.filled slot hslot before after
    simp only [List.append_assoc] at hwhole hleft hafter ⊢
    rw [hwhole, hleft, hafter]
    simp only [List.append_assoc]
  | plain x hx =>
    induction y using split_induction hne with
    | filled slot hslot before after hbefore _ =>
      have hwhole := hf.filled slot hslot (x ++ (t ++ before)) after
      have hright := hf.filled slot hslot before after
      simp only [List.append_assoc] at hwhole hright hbefore ⊢
      rw [hwhole, hright, hbefore]
      simp only [List.append_assoc]
    | plain y hy =>
      have hnone : ∀ slot ∈ slots, ¬slot.1 <:+: x ++ (t ++ y) := by
        intro slot hslot hfound
        rcases infix_of_apart (hapart slot hslot) hfound with h | h
        · exact hx slot hslot h
        · exact hy slot hslot h
      rw [hf.plain _ hnone, hf.plain x hx, hf.plain y hy]

theorem length_le (hf : Fills slots f) (hne : ∀ slot ∈ slots, slot.1 ≠ [])
    (hlong : ∀ slot ∈ slots, slot.1.length ≤ slot.2.length) (text : List Char) :
    text.length ≤ (f text).length := by
  induction text using split_induction hne with
  | plain text hnone => rw [hf.plain text hnone]
  | filled slot hslot before after hbefore hafter =>
    have hslotLong := hlong slot hslot
    rw [hf.filled slot hslot]
    simp only [List.length_append]
    omega

theorem length_lt (hf : Fills slots f) (hne : ∀ slot ∈ slots, slot.1 ≠ [])
    (hlong : ∀ slot ∈ slots, slot.1.length < slot.2.length)
    (hocc : ∃ slot ∈ slots, slot.1 <:+: text) :
    text.length < (f text).length := by
  obtain ⟨slot, hslot, before, after, rfl⟩ := hocc
  have hle := hf.length_le hne fun slot hslot => (hlong slot hslot).le
  have hbefore := hle before
  have hafter := hle after
  have hslotLong := hlong slot hslot
  rw [List.append_assoc, hf.filled slot hslot]
  simp only [List.length_append]
  omega

/-- One after the other is at once, if neither the patterns nor what the first puts in complete a
pattern of the other. -/
theorem comp {later : List Slot} (hf : Fills slots f) (hg : Fills later g)
    (hne : ∀ slot ∈ slots ++ later, slot.1 ≠ [])
    (hpatterns : ∀ slot ∈ slots, ∀ other ∈ later, Apart slot.1 other.1)
    (hinserted : ∀ slot ∈ slots, ∀ other ∈ later, Apart other.1 slot.2) :
    Fills (slots ++ later) (g ∘ f) where
  plain text hnone := by
    have hslots := hf.plain text fun slot hslot => hnone slot (List.mem_append_left _ hslot)
    have hlater := hg.plain text fun slot hslot => hnone slot (List.mem_append_right _ hslot)
    rw [Function.comp_apply, hslots, hlater]
  filled slot hslot before after := by
    simp only [Function.comp_apply]
    rcases List.mem_append.1 hslot with hslot | hslot
    · have hlater : ∀ other ∈ later, other.1 ≠ [] :=
        fun other hother => hne other (List.mem_append_right _ hother)
      rw [hf.filled slot hslot, hg.append_apart hlater (hinserted slot hslot)]
    · have hslots : ∀ other ∈ slots, other.1 ≠ [] :=
        fun other hother => hne other (List.mem_append_left _ hother)
      rw [hf.append_apart hslots fun other hother => hpatterns other hother slot hslot,
        hg.filled slot hslot]

end Fills

structure Scans (slots : List Slot) (f : List Char → List Char) : Prop where
  nil : f [] = []
  slot : ∀ slot ∈ slots, ∀ rest, f (slot.1 ++ rest) = slot.2 ++ f rest
  char : ∀ c rest, (∀ slot ∈ slots, ¬slot.1 <+: c :: rest) → f (c :: rest) = c :: f rest

namespace Scans

theorem plain (hf : Scans slots f) (text : List Char)
    (hnone : ∀ slot ∈ slots, ¬slot.1 <:+: text) :
    f text = text := by
  induction text with
  | nil => exact hf.nil
  | cons c rest ih =>
    rw [hf.char c rest fun slot hslot h => hnone slot hslot h.isInfix,
      ih fun slot hslot h => hnone slot hslot (List.infix_cons h)]

theorem append (hf : Scans slots f) (hne : ∀ slot ∈ slots, slot.1 ≠ [])
    (hover : ∀ slot ∈ slots, ¬Overhangs slot.1 t) (x y : List Char) :
    f (x ++ (t ++ y)) = f x ++ f (t ++ y) := by
  induction hlength : x.length using Nat.strong_induction_on generalizing x with
  | _ n ih =>
    by_cases hslot : ∃ slot ∈ slots, slot.1 <+: x
    · obtain ⟨slot, hslot, rest, rfl⟩ := hslot
      have hpos := List.length_pos_iff.2 (hne slot hslot)
      rw [List.length_append] at hlength
      rw [List.append_assoc, hf.slot slot hslot, hf.slot slot hslot,
        ih rest.length (by omega) rest rfl, List.append_assoc]
    · cases x with
      | nil => rw [List.nil_append, hf.nil, List.nil_append]
      | cons c rest =>
        have hwhole : ∀ slot ∈ slots, ¬slot.1 <+: c :: (rest ++ (t ++ y)) := by
          rintro slot hmem ⟨after, h⟩
          have hsplit : slot.1 ++ after = (c :: rest) ++ (t ++ y) := h
          rcases append_eq_append_cases hsplit (hover slot hmem) with hbegins | hnil
          · exact hslot ⟨slot, hmem, hbegins⟩
          · exact List.cons_ne_nil c rest hnil
        rw [List.cons_append, hf.char c _ hwhole,
          hf.char c rest fun slot hmem h => hslot ⟨slot, hmem, h⟩,
          ih rest.length (by simp [← hlength]) rest rfl, List.cons_append]

theorem fills (hf : Scans slots f) (hne : ∀ slot ∈ slots, slot.1 ≠ [])
    (hover : ∀ slot ∈ slots, ∀ other ∈ slots, ¬Overhangs slot.1 other.1) : Fills slots f where
  plain := hf.plain
  filled slot hslot before after := by
    rw [hf.append hne fun other hother => hover other hother slot hslot, hf.slot slot hslot]

end Scans

end MergeTrial.Text
