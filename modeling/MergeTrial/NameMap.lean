import MergeTrial.NameSet

/-! Finite maps from names, listed with ascending keys. Main statements: a look-up after a write,
and two maps that answer every look-up alike are equal. -/

namespace MergeTrial

structure NameMap (α : Type) where
  toList : List (String × α)
  ascending : (toList.map Prod.fst).Pairwise (· < ·)
  deriving DecidableEq

namespace NameMap
variable {α β : Type}

def find (name : String) : List (String × α) → Option α
  | [] => none
  | (key, value) :: rest => if key = name then some value else find name rest

def alterList (name : String) (f : Option α → α) : List (String × α) → List (String × α)
  | [] => [(name, f none)]
  | (key, value) :: rest =>
    if name < key then (name, f none) :: (key, value) :: rest
    else if key < name then (key, value) :: alterList name f rest
    else (key, f (some value)) :: rest

theorem mem_keys_alterList {x name : String} {f : Option α → α} {l : List (String × α)} :
    x ∈ (alterList name f l).map Prod.fst ↔ x = name ∨ x ∈ l.map Prod.fst := by
  induction l with
  | nil => simp [alterList]
  | cons entry rest ih =>
    obtain ⟨key, value⟩ := entry
    simp only [alterList]
    split
    · simp
    · split
      · simp only [List.map_cons, List.mem_cons, ih]
        exact ⟨fun h => by rcases h with h | h | h <;> simp [h],
          fun h => by rcases h with h | h | h <;> simp [h]⟩
      · next h₁ h₂ =>
        have : name = key := String.le_antisymm (String.not_lt.1 h₂) (String.not_lt.1 h₁)
        simp [this]

theorem pairwise_alterList {name : String} {f : Option α → α} {l : List (String × α)}
    (h : (l.map Prod.fst).Pairwise (· < ·)) :
    ((alterList name f l).map Prod.fst).Pairwise (· < ·) := by
  induction l with
  | nil => simp [alterList]
  | cons entry rest ih =>
    obtain ⟨key, value⟩ := entry
    obtain ⟨hkey, hrest⟩ := List.pairwise_cons.1 h
    simp only [alterList]
    split
    · next hlt =>
      refine List.pairwise_cons.2 ⟨fun x hx => ?_, h⟩
      rcases List.mem_cons.1 hx with rfl | hx
      · exact hlt
      · exact String.lt_trans hlt (hkey x hx)
    · split
      · next hlt =>
        refine List.pairwise_cons.2 ⟨fun x hx => ?_, ih hrest⟩
        rcases mem_keys_alterList.1 hx with rfl | hx
        · exact hlt
        · exact hkey x hx
      · exact h

theorem find_eq_none_of_lt {name : String} {l : List (String × α)}
    (h : ∀ x ∈ l.map Prod.fst, name < x) : find name l = none := by
  induction l with
  | nil => rfl
  | cons entry rest ih =>
    have hne : entry.1 ≠ name := fun he =>
      String.lt_irrefl name (by simpa [he] using h entry.1 (by simp))
    simp only [find, if_neg hne]
    exact ih fun x hx => h x (by simp [List.mem_map.1 hx])

theorem find_alterList {x name : String} {f : Option α → α} {l : List (String × α)}
    (h : (l.map Prod.fst).Pairwise (· < ·)) :
    find x (alterList name f l) = if x = name then some (f (find name l)) else find x l := by
  induction l with
  | nil => simp only [alterList, find, eq_comm]
  | cons entry rest ih =>
    obtain ⟨key, value⟩ := entry
    obtain ⟨hkey, hrest⟩ := List.pairwise_cons.1 h
    simp only [alterList]
    split
    · next hlt =>
      have hnone : find name ((key, value) :: rest) = none := by
        apply find_eq_none_of_lt
        intro y hy
        rcases List.mem_cons.1 hy with rfl | hy
        · exact hlt
        · exact String.lt_trans hlt (hkey y hy)
      rw [hnone]
      simp only [find, eq_comm (a := name)]
    · split
      · next hlt =>
        have hne : key ≠ name := fun he => String.lt_irrefl name (by rwa [he] at hlt)
        simp only [find, if_neg hne, ih hrest]
        by_cases hx : x = name
        · subst hx
          simp [hne]
        · simp [hx]
      · next h₁ h₂ =>
        have hname : name = key := String.le_antisymm (String.not_lt.1 h₂) (String.not_lt.1 h₁)
        subst hname
        simp only [find, if_pos]
        by_cases hx : x = name <;> simp [hx, eq_comm]

theorem find_cons_of_lt {key : String} {value : α} {l : List (String × α)} {name : String}
    (hkey : ∀ x ∈ l.map Prod.fst, key < x) (h : name < key) :
    find name ((key, value) :: l) = none := by
  apply find_eq_none_of_lt
  intro x hx
  rcases List.mem_cons.1 hx with rfl | hx
  · exact h
  · exact String.lt_trans h (hkey x hx)

theorem eq_of_find {l₁ l₂ : List (String × α)} (h₁ : (l₁.map Prod.fst).Pairwise (· < ·))
    (h₂ : (l₂.map Prod.fst).Pairwise (· < ·)) (h : ∀ x, find x l₁ = find x l₂) : l₁ = l₂ := by
  induction l₁ generalizing l₂ with
  | nil =>
    cases l₂ with
    | nil => rfl
    | cons entry rest => simpa [find] using h entry.1
  | cons entry rest ih =>
    cases l₂ with
    | nil => simpa [find] using h entry.1
    | cons entry' rest' =>
      obtain ⟨key, value⟩ := entry
      obtain ⟨key', value'⟩ := entry'
      obtain ⟨hkey, hrest⟩ := List.pairwise_cons.1 h₁
      obtain ⟨hkey', hrest'⟩ := List.pairwise_cons.1 h₂
      have hle : ¬key' < key := fun hlt => by
        have hnone := h key'
        rw [find_cons_of_lt hkey hlt] at hnone
        simp [find] at hnone
      have hge : ¬key < key' := fun hlt => by
        have hnone := h key
        rw [find_cons_of_lt hkey' hlt] at hnone
        simp [find] at hnone
      obtain rfl : key = key' := String.le_antisymm (String.not_lt.1 hle) (String.not_lt.1 hge)
      have hvalue : value = value' := by simpa [find] using h key
      have hfind : ∀ x, find x rest = find x rest' := by
        intro x
        by_cases hx : key = x
        · subst hx
          rw [find_eq_none_of_lt hkey, find_eq_none_of_lt hkey']
        · simpa [find, hx] using h x
      rw [hvalue, ih hrest hrest' hfind]

theorem find_ne_none_iff {name : String} {l : List (String × α)} :
    find name l ≠ none ↔ name ∈ l.map Prod.fst := by
  induction l with
  | nil => simp [find]
  | cons entry rest ih =>
    obtain ⟨key, value⟩ := entry
    by_cases h : key = name
    · simp [find, h]
    · have hne : ¬name = key := fun he => h he.symm
      simpa only [find, if_neg h, List.map_cons, List.mem_cons, hne, false_or] using ih

theorem find_eq_none_iff {name : String} {l : List (String × α)} :
    find name l = none ↔ name ∉ l.map Prod.fst := by
  rw [← find_ne_none_iff, ne_eq, Decidable.not_not]

theorem find_filter {p : String → Bool} {name : String} {l : List (String × α)} :
    find name (l.filter fun entry => p entry.1) = if p name then find name l else none := by
  induction l with
  | nil => simp [find]
  | cons entry rest ih =>
    by_cases h : entry.1 = name
    · cases hp : p name <;> simp [find, h, hp, ih]
    · cases hp : p entry.1 <;> simp [find, h, hp, ih]

theorem find_map {f : String → α} {name : String} {names : List String} :
    find name (names.map fun x => (x, f x)) = if name ∈ names then some (f name) else none := by
  induction names with
  | nil => simp [find]
  | cons first rest ih =>
    by_cases h : first = name
    · simp [find, h]
    · simp [find, h, ih, Ne.symm h]

def empty : NameMap α := ⟨[], by simp⟩

instance : EmptyCollection (NameMap α) := ⟨empty⟩
instance : Inhabited (NameMap α) := ⟨empty⟩

def get? (m : NameMap α) (name : String) : Option α := find name m.toList

def alter (m : NameMap α) (name : String) (f : Option α → α) : NameMap α :=
  ⟨alterList name f m.toList, pairwise_alterList m.ascending⟩

def insert (m : NameMap α) (name : String) (value : α) : NameMap α := m.alter name fun _ => value

def ofList (entries : List (String × α)) : NameMap α :=
  entries.foldl (fun m entry => m.insert entry.1 entry.2) empty

def keys (m : NameMap α) : List String := m.toList.map Prod.fst

def contains (m : NameMap α) (name : String) : Bool := (m.get? name).isSome

def size (m : NameMap α) : Nat := m.toList.length

def ofNames (names : NameSet) (f : String → α) : NameMap α where
  toList := names.toList.map fun name => (name, f name)
  ascending := by simpa [Function.comp_def] using names.ascending

def filterKeys (m : NameMap α) (p : String → Bool) : NameMap α where
  toList := m.toList.filter fun entry => p entry.1
  ascending := by
    have h : (m.toList.filter fun entry => p entry.1).map Prod.fst
        = (m.toList.map Prod.fst).filter p := by
      rw [List.filter_map]
      rfl
    rw [h]
    exact m.ascending.filter p

@[simp] theorem get?_empty (name : String) : (empty : NameMap α).get? name = none := rfl

@[simp] theorem get?_alter (m : NameMap α) (x name : String) (f : Option α → α) :
    (m.alter name f).get? x = if x = name then some (f (m.get? name)) else m.get? x :=
  find_alterList m.ascending

@[simp] theorem get?_insert (m : NameMap α) (x name : String) (value : α) :
    (m.insert name value).get? x = if x = name then some value else m.get? x := by
  simp [insert]

@[ext] theorem ext {s t : NameMap α} (h : ∀ name, s.get? name = t.get? name) : s = t := by
  cases s with
  | mk l₁ h₁ =>
    cases t with
    | mk l₂ h₂ =>
      obtain rfl : l₁ = l₂ := eq_of_find h₁ h₂ h
      rfl

theorem get?_ne_none_iff {m : NameMap α} {name : String} :
    m.get? name ≠ none ↔ name ∈ m.keys :=
  find_ne_none_iff

@[simp] theorem get?_filterKeys (m : NameMap α) (p : String → Bool) (name : String) :
    (m.filterKeys p).get? name = if p name then m.get? name else none :=
  find_filter

@[simp] theorem get?_ofNames (names : NameSet) (f : String → α) (name : String) :
    (ofNames names f).get? name = if name ∈ names then some (f name) else none :=
  find_map

theorem mem_keys_alter {m : NameMap α} {x name : String} {f : Option α → α} :
    x ∈ (m.alter name f).keys ↔ x = name ∨ x ∈ m.keys :=
  mem_keys_alterList

theorem mem_alterList {entry : String × α} {name : String} {f : Option α → α}
    {l : List (String × α)} (h : entry ∈ alterList name f l) :
    (∃ x, entry = (name, f x)) ∨ entry ∈ l := by
  induction l with
  | nil => exact Or.inl ⟨none, by simpa [alterList] using h⟩
  | cons head rest ih =>
    obtain ⟨key, value⟩ := head
    simp only [alterList] at h
    split at h
    · rcases List.mem_cons.1 h with h | h
      · exact Or.inl ⟨none, h⟩
      · exact Or.inr h
    · split at h
      · rcases List.mem_cons.1 h with h | h
        · exact Or.inr (h ▸ List.mem_cons_self)
        · exact (ih h).imp_right (List.mem_cons_of_mem _)
      · next h₁ h₂ =>
        have : name = key := String.le_antisymm (String.not_lt.1 h₂) (String.not_lt.1 h₁)
        rcases List.mem_cons.1 h with h | h
        · exact Or.inl ⟨some value, by rw [h, this]⟩
        · exact Or.inr (List.mem_cons_of_mem _ h)

theorem mem_insert {m : NameMap α} {entry : String × α} {name : String} {value : α}
    (h : entry ∈ (m.insert name value).toList) : entry = (name, value) ∨ entry ∈ m.toList :=
  (mem_alterList h).imp_left fun ⟨_, h⟩ => h

theorem mem_ofList {entry : String × α} {entries : List (String × α)}
    (h : entry ∈ (ofList entries).toList) : entry ∈ entries := by
  have general : ∀ (l : List (String × α)) (m : NameMap α),
      entry ∈ (l.foldl (fun m e => m.insert e.1 e.2) m).toList → entry ∈ l ∨ entry ∈ m.toList := by
    intro l
    induction l with
    | nil => exact fun m h => Or.inr h
    | cons e l ih =>
      intro m h
      rcases ih _ h with h | h
      · exact Or.inl (List.mem_cons_of_mem _ h)
      · rcases mem_insert h with h | h
        · exact Or.inl (h ▸ List.mem_cons_self)
        · exact Or.inr h
  rcases general entries empty h with h | h
  · exact h
  · exact absurd h List.not_mem_nil

theorem find_eq_some_iff {name : String} {value : α} {l : List (String × α)}
    (h : (l.map Prod.fst).Nodup) : find name l = some value ↔ (name, value) ∈ l := by
  induction l with
  | nil => simp [find]
  | cons entry rest ih =>
    obtain ⟨key, other⟩ := entry
    obtain ⟨hkey, hrest⟩ := List.nodup_cons.1 h
    by_cases hname : key = name
    · subst hname
      simp only [find, if_true, List.mem_cons, Prod.mk.injEq, true_and, Option.some.injEq]
      constructor
      · exact fun h => Or.inl h.symm
      · rintro (h | hmem)
        · exact h.symm
        · exact absurd (List.mem_map_of_mem hmem) hkey
    · simp only [find, if_neg hname, ih hrest, List.mem_cons, Prod.mk.injEq, Ne.symm hname,
        false_and, false_or]

theorem nodup_keys (m : NameMap α) : m.keys.Nodup := m.ascending.imp String.ne_of_lt

theorem get?_eq_some_iff {m : NameMap α} {name : String} {value : α} :
    m.get? name = some value ↔ (name, value) ∈ m.toList :=
  find_eq_some_iff m.nodup_keys

theorem get?_foldl_alter (key : β → String) (f : Option α → β → α) (xs : List β) (m : NameMap α)
    (name : String) :
    (xs.foldl (fun m x => m.alter (key x) fun value => f value x) m).get? name =
      (xs.filter fun x => key x = name).foldl (fun value x => some (f value x)) (m.get? name) := by
  induction xs generalizing m with
  | nil => rfl
  | cons x rest ih =>
    rw [List.foldl_cons, ih, get?_alter, List.filter_cons]
    by_cases h : key x = name
    · simp [h]
    · simp [h, Ne.symm h]

theorem get?_foldl_insert {entries : List (String × α)} (h : (entries.map Prod.fst).Nodup)
    (m : NameMap α) (name : String) :
    (entries.foldl (fun m entry => m.insert entry.1 entry.2) m).get? name =
      (find name entries).or (m.get? name) := by
  induction entries generalizing m with
  | nil => rfl
  | cons entry rest ih =>
    obtain ⟨hentry, hrest⟩ := List.nodup_cons.1 h
    rw [List.foldl_cons, ih hrest, get?_insert, find]
    by_cases hname : entry.1 = name
    · have hnone : find name rest = none := find_eq_none_iff.2 (hname ▸ hentry)
      rw [hnone, if_pos hname.symm, if_pos hname, Option.none_or, Option.some_or]
    · rw [if_neg (Ne.symm hname), if_neg hname]

theorem get?_ofList {entries : List (String × α)} (h : (entries.map Prod.fst).Nodup)
    (name : String) : (ofList entries).get? name = find name entries := by
  rw [ofList, get?_foldl_insert h, get?_empty, Option.or_none]

theorem get?_ofList_eq_some_iff {entries : List (String × α)} (h : (entries.map Prod.fst).Nodup)
    {name : String} {value : α} :
    (ofList entries).get? name = some value ↔ (name, value) ∈ entries := by
  rw [get?_ofList h, find_eq_some_iff h]

theorem get?_foldl_insert_eq_or (entries : List (String × α)) (m : NameMap α) (name : String) :
    (entries.foldl (fun m entry => m.insert entry.1 entry.2) m).get? name =
      ((ofList entries).get? name).or (m.get? name) := by
  induction entries generalizing m with
  | nil => rfl
  | cons entry rest ih =>
    rw [ofList, List.foldl_cons, List.foldl_cons, ih, ih, Option.or_assoc, get?_insert, get?_insert,
      get?_empty]
    split <;> rfl

theorem get?_ofList_append (xs ys : List (String × α)) (name : String) :
    (ofList (xs ++ ys)).get? name = ((ofList ys).get? name).or ((ofList xs).get? name) := by
  rw [ofList, List.foldl_append]
  exact get?_foldl_insert_eq_or ..

theorem mem_keys_ofList {entries : List (String × α)} {name : String} :
    name ∈ (ofList entries).keys ↔ name ∈ entries.map Prod.fst := by
  induction entries with
  | nil => exact Iff.rfl
  | cons entry rest ih =>
    rw [← List.singleton_append, ← get?_ne_none_iff, get?_ofList_append, ne_eq,
      Option.or_eq_none_iff, Decidable.not_and_iff_or_not, ← ne_eq, ← ne_eq, get?_ne_none_iff, ih,
      get?_ofList (by simp), find_ne_none_iff, List.map_append, List.mem_append, or_comm]

theorem get?_ofList_last {before after : List (String × α)} {name : String} {value : α}
    (h : name ∉ after.map Prod.fst) :
    (ofList (before ++ (name, value) :: after)).get? name = some value := by
  have hafter : (ofList after).get? name = none :=
    find_eq_none_iff.2 fun hmem => h (mem_keys_ofList.1 hmem)
  have hentry : (ofList [(name, value)]).get? name = some value :=
    (get?_ofList (by simp) name).trans (if_pos rfl)
  rw [get?_ofList_append, ← List.singleton_append, get?_ofList_append, hafter, hentry]
  rfl

theorem insert_comm (m : NameMap α) {a b : String} {x y : α} (h : a = b → x = y) :
    (m.insert a x).insert b y = (m.insert b y).insert a x := by
  ext1 name
  simp only [get?_insert]
  by_cases ha : name = a
  · by_cases hb : name = b
    · simp only [if_pos hb, if_pos ha, h (ha.symm.trans hb)]
    · simp only [if_pos ha, if_neg hb]
  · simp only [if_neg ha]

end NameMap
end MergeTrial
