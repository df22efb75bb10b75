/-! Finite sets of names, listed in ascending order. Main statements: membership after an insertion,
and two sets with the same members are equal. -/

namespace MergeTrial

structure NameSet where
  toList : List String
  ascending : toList.Pairwise (· < ·)
  deriving DecidableEq

namespace NameSet

def insertList (name : String) : List String → List String
  | [] => [name]
  | first :: rest =>
    if name < first then name :: first :: rest
    else if first < name then first :: insertList name rest
    else first :: rest

theorem mem_insertList {x name : String} {l : List String} :
    x ∈ insertList name l ↔ x = name ∨ x ∈ l := by
  induction l with
  | nil => simp [insertList]
  | cons first rest ih =>
    simp only [insertList]
    split
    · simp
    · split
      · simp only [List.mem_cons, ih]
        exact ⟨fun h => by rcases h with h | h | h <;> simp [h],
          fun h => by rcases h with h | h | h <;> simp [h]⟩
      · next h₁ h₂ =>
        have : name = first :=
          String.le_antisymm (String.not_lt.1 h₂) (String.not_lt.1 h₁)
        simp [this]

theorem pairwise_insertList {name : String} {l : List String} (h : l.Pairwise (· < ·)) :
    (insertList name l).Pairwise (· < ·) := by
  induction l with
  | nil => simp [insertList]
  | cons first rest ih =>
    obtain ⟨hfirst, hrest⟩ := List.pairwise_cons.1 h
    simp only [insertList]
    split
    · next hlt =>
      refine List.pairwise_cons.2 ⟨fun x hx => ?_, h⟩
      rcases List.mem_cons.1 hx with rfl | hx
      · exact hlt
      · exact String.lt_trans hlt (hfirst x hx)
    · split
      · next hlt =>
        refine List.pairwise_cons.2 ⟨fun x hx => ?_, ih hrest⟩
        rcases mem_insertList.1 hx with rfl | hx
        · exact hlt
        · exact hfirst x hx
      · exact h

def empty : NameSet := ⟨[], List.Pairwise.nil⟩

instance : EmptyCollection NameSet := ⟨empty⟩
instance : Inhabited NameSet := ⟨empty⟩

def insert (s : NameSet) (name : String) : NameSet :=
  ⟨insertList name s.toList, pairwise_insertList s.ascending⟩

def ofList (names : List String) : NameSet := names.foldl insert empty

instance : Membership String NameSet := ⟨fun s name => name ∈ s.toList⟩

instance (name : String) (s : NameSet) : Decidable (name ∈ s) :=
  inferInstanceAs (Decidable (name ∈ s.toList))

def isEmpty (s : NameSet) : Bool := s.toList.isEmpty

def size (s : NameSet) : Nat := s.toList.length

@[simp] theorem mem_toList {s : NameSet} {name : String} : name ∈ s.toList ↔ name ∈ s := Iff.rfl

@[simp] theorem not_mem_empty (name : String) : ¬name ∈ (∅ : NameSet) := List.not_mem_nil

@[simp] theorem mem_insert {s : NameSet} {x name : String} :
    x ∈ s.insert name ↔ x = name ∨ x ∈ s :=
  mem_insertList

theorem mem_foldl_insert {names : List String} {s : NameSet} {x : String} :
    x ∈ names.foldl insert s ↔ x ∈ names ∨ x ∈ s := by
  induction names generalizing s with
  | nil => simp
  | cons name names ih =>
    simp only [List.foldl_cons, ih, mem_insert, List.mem_cons]
    exact ⟨fun h => by rcases h with h | h | h <;> simp [h],
      fun h => by rcases h with (h | h) | h <;> simp [h]⟩

@[simp] theorem mem_ofList {names : List String} {x : String} : x ∈ ofList names ↔ x ∈ names := by
  rw [ofList, mem_foldl_insert]
  exact or_iff_left (not_mem_empty x)

theorem eq_of_ascending {l₁ l₂ : List String} (h₁ : l₁.Pairwise (· < ·))
    (h₂ : l₂.Pairwise (· < ·)) (h : ∀ x, x ∈ l₁ ↔ x ∈ l₂) : l₁ = l₂ := by
  induction l₁ generalizing l₂ with
  | nil =>
    cases l₂ with
    | nil => rfl
    | cons b l₂ => exact absurd ((h b).2 List.mem_cons_self) List.not_mem_nil
  | cons a l₁ ih =>
    cases l₂ with
    | nil => exact absurd ((h a).1 List.mem_cons_self) List.not_mem_nil
    | cons b l₂ =>
      obtain ⟨ha, hl₁⟩ := List.pairwise_cons.1 h₁
      obtain ⟨hb, hl₂⟩ := List.pairwise_cons.1 h₂
      have hab : a = b := by
        rcases List.mem_cons.1 ((h a).1 List.mem_cons_self) with hab | hab
        · exact hab
        · rcases List.mem_cons.1 ((h b).2 List.mem_cons_self) with hba | hba
          · exact hba.symm
          · exact absurd (hb a hab) (String.lt_asymm (ha b hba))
      subst hab
      refine congrArg (a :: ·) (ih hl₁ hl₂ fun x => ?_)
      have hx := h x
      simp only [List.mem_cons] at hx
      constructor
      · intro hm
        rcases hx.1 (Or.inr hm) with rfl | hm'
        · exact absurd (ha x hm) (String.lt_irrefl x)
        · exact hm'
      · intro hm
        rcases hx.2 (Or.inr hm) with rfl | hm'
        · exact absurd (hb x hm) (String.lt_irrefl x)
        · exact hm'

@[ext] theorem ext {s t : NameSet} (h : ∀ x, x ∈ s ↔ x ∈ t) : s = t := by
  cases s with
  | mk l₁ h₁ =>
    cases t with
    | mk l₂ h₂ =>
      have : l₁ = l₂ := eq_of_ascending h₁ h₂ h
      subst this
      rfl

def diff (s t : NameSet) : NameSet :=
  ⟨s.toList.filter fun name => ¬name ∈ t, s.ascending.filter _⟩

@[simp] theorem mem_diff {s t : NameSet} {x : String} : x ∈ s.diff t ↔ x ∈ s ∧ ¬x ∈ t := by
  rw [← mem_toList, diff, List.mem_filter, decide_eq_true_eq, mem_toList]

def union (s t : NameSet) : NameSet := t.toList.foldl insert s

@[simp] theorem mem_union {s t : NameSet} {x : String} : x ∈ s.union t ↔ x ∈ s ∨ x ∈ t := by
  rw [union, mem_foldl_insert, mem_toList, or_comm]

theorem insert_comm (s : NameSet) (a b : String) :
    (s.insert a).insert b = (s.insert b).insert a := by
  ext x
  simp only [mem_insert, or_left_comm]

theorem nodup_toList (s : NameSet) : s.toList.Nodup := s.ascending.imp String.ne_of_lt

theorem size_ofList {names : List String} (h : names.Nodup) : (ofList names).size = names.length :=
  ((List.perm_ext_iff_of_nodup (nodup_toList _) h).2 fun _ => mem_ofList).length_eq

def ofList? (names : List String) : Option NameSet :=
  if names.isEmpty then none else some (ofList names)

theorem mem_getD_ofList? {names : List String} {x : String} :
    x ∈ (ofList? names).getD ∅ ↔ x ∈ names := by
  cases names with
  | nil => simp [ofList?]
  | cons name rest => exact mem_ofList

theorem ofList?_eq {names : List String} {s : NameSet} (h : ∀ x, x ∈ names ↔ x ∈ s) :
    ofList? names = if s.isEmpty then none else some s := by
  obtain rfl : ofList names = s := ext fun x => mem_ofList.trans (h x)
  cases names with
  | nil => rfl
  | cons name rest =>
    have hne : (ofList (name :: rest)).isEmpty = false := by
      rw [isEmpty, List.isEmpty_eq_false_iff_exists_mem]
      exact ⟨name, mem_ofList.2 List.mem_cons_self⟩
    rw [ofList?, hne]
    rfl

theorem ofList?_congr {xs ys : List String} (h : ∀ x, x ∈ xs ↔ x ∈ ys) :
    ofList? xs = ofList? ys := by
  rw [ofList?_eq fun _ => mem_ofList.symm, ofList?_eq fun x => (h x).symm.trans mem_ofList.symm]

def firstRepeatAfter (seen : NameSet) : List String → Option String
  | [] => none
  | name :: rest => if name ∈ seen then some name else firstRepeatAfter (seen.insert name) rest

def firstRepeat (names : List String) : Option String := firstRepeatAfter ∅ names

theorem firstRepeatAfter_eq_none_iff {seen : NameSet} {names : List String} :
    firstRepeatAfter seen names = none ↔ names.Nodup ∧ ∀ x ∈ names, ¬x ∈ seen := by
  induction names generalizing seen with
  | nil => simp [firstRepeatAfter]
  | cons name rest ih =>
    simp only [firstRepeatAfter, List.nodup_cons, List.forall_mem_cons]
    split
    · next h => simp [h]
    · next h =>
      rw [ih]
      constructor
      · rintro ⟨hnodup, hrest⟩
        refine ⟨⟨fun hm => ?_, hnodup⟩, h, fun x hx => ?_⟩
        · exact hrest name hm (mem_insert.2 (Or.inl rfl))
        · exact fun hs => hrest x hx (mem_insert.2 (Or.inr hs))
      · rintro ⟨⟨hname, hnodup⟩, -, hrest⟩
        refine ⟨hnodup, fun x hx hs => ?_⟩
        rcases mem_insert.1 hs with rfl | hs
        · exact hname hx
        · exact hrest x hx hs

theorem firstRepeat_eq_none_iff {names : List String} :
    firstRepeat names = none ↔ names.Nodup := by
  simp [firstRepeat, firstRepeatAfter_eq_none_iff]

theorem firstRepeatAfter_eq_some_iff {seen : NameSet} {names : List String} {name : String} :
    firstRepeatAfter seen names = some name ↔ ∃ before after, names = before ++ name :: after ∧
      before.Nodup ∧ (∀ x ∈ before, ¬x ∈ seen) ∧ (name ∈ before ∨ name ∈ seen) := by
  induction names generalizing seen with
  | nil => simp [firstRepeatAfter]
  | cons first rest ih =>
    simp only [firstRepeatAfter]
    split
    · next hseen =>
      constructor
      · intro h
        obtain rfl := Option.some.inj h
        exact ⟨[], rest, rfl, List.nodup_nil, by simp, Or.inr hseen⟩
      · rintro ⟨before, after, hsplit, -, hbefore, hname⟩
        cases before with
        | nil => exact congrArg some (List.cons.inj hsplit).1
        | cons x before =>
          obtain ⟨rfl, -⟩ := List.cons.inj hsplit
          exact absurd hseen (hbefore first List.mem_cons_self)
    · next hseen =>
      rw [ih]
      constructor
      · rintro ⟨before, after, rfl, hnodup, hbefore, hname⟩
        simp only [mem_insert, not_or] at hbefore hname
        have hfirst : first ∉ before := fun hmem => (hbefore first hmem).1 rfl
        refine ⟨first :: before, after, rfl, List.nodup_cons.2 ⟨hfirst, hnodup⟩,
          List.forall_mem_cons.2 ⟨hseen, fun x hx => (hbefore x hx).2⟩, ?_⟩
        rw [List.mem_cons]
        rcases hname with hname | hname | hname
        · exact Or.inl (Or.inr hname)
        · exact Or.inl (Or.inl hname)
        · exact Or.inr hname
      · rintro ⟨before, after, hsplit, hnodup, hbefore, hname⟩
        cases before with
        | nil =>
          obtain ⟨rfl, -⟩ := List.cons.inj hsplit
          exact absurd (hname.resolve_left List.not_mem_nil) hseen
        | cons x before =>
          obtain ⟨rfl, rfl⟩ := List.cons.inj hsplit
          obtain ⟨hfirst, hnodup⟩ := List.nodup_cons.1 hnodup
          refine ⟨before, after, rfl, hnodup, fun x hx => ?_, ?_⟩
          · rw [mem_insert, not_or]
            exact ⟨fun heq => hfirst (heq ▸ hx), hbefore x (List.mem_cons_of_mem _ hx)⟩
          · rw [mem_insert]
            rcases hname with hname | hname
            · rcases List.mem_cons.1 hname with hname | hname
              · exact Or.inr (Or.inl hname)
              · exact Or.inl hname
            · exact Or.inr (Or.inr hname)

theorem firstRepeat_eq_some_iff {names : List String} {name : String} :
    firstRepeat names = some name ↔
      ∃ before after, names = before ++ name :: after ∧ before.Nodup ∧ name ∈ before := by
  simp [firstRepeat, firstRepeatAfter_eq_some_iff]

end NameSet
end MergeTrial
