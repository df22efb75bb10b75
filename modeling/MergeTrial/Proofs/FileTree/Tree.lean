import MergeTrial.FileTree.Machine

/-! What a change at one location leaves of a tree of files: everything that is not at that location
or below it stays, but for the entry in the directory around it. -/

namespace MergeTrial

theorem lookup_eq_some_iff {α β : Type} [BEq α] [LawfulBEq α] {entries : List (α × β)}
    (hkeys : (entries.map Prod.fst).Nodup) {key : α} {value : β} :
    entries.lookup key = some value ↔ (key, value) ∈ entries := by
  induction entries with
  | nil => simp
  | cons entry rest ih =>
    obtain ⟨hentry, hrest⟩ := List.nodup_cons.1 hkeys
    obtain ⟨first, found⟩ := entry
    rw [List.lookup_cons, List.mem_cons, Prod.mk.injEq]
    cases hkey : key == first with
    | true =>
      obtain rfl := eq_of_beq hkey
      have hother : ¬(key, value) ∈ rest := fun h =>
        hentry (List.mem_map.2 ⟨_, h, rfl⟩)
      simp [hother, eq_comm]
    | false => simp [ne_of_beq_false hkey, ih hrest]

namespace Node
variable {n root later last : Node} {value : Option Node} {name key : Bytes}
  {location here parent rest : Location} {entries : List (Bytes × Node)} {mode : Nat}

theorem at?_append (n : Node) (location rest : Location) :
    n.at? (location ++ rest) = (n.at? location).bind (·.at? rest) := by
  induction location generalizing n with
  | nil => rfl
  | cons name location ih =>
    rw [List.cons_append, at?, at?]
    cases n.child? name with
    | none => rfl
    | some child => exact ih child

theorem at?_concat (n : Node) (location : Location) (name : Bytes) :
    n.at? (location ++ [name]) = (n.at? location).bind (·.child? name) := by
  rw [at?_append]
  refine Option.bind_congr fun node _ => ?_
  rw [at?]
  cases node.child? name <;> rfl

theorem lookup_of_not_mem (h : name ∉ entries.map Prod.fst) : entries.lookup name = none := by
  induction entries with
  | nil => rfl
  | cons entry rest ih =>
    obtain ⟨hname, hrest⟩ := not_or.1 fun hmem => h (List.mem_cons.2 hmem)
    rw [List.lookup_cons, beq_eq_false_iff_ne.2 hname]
    exact ih hrest

theorem lookup_putEntry_of_ne (h : key ≠ name) :
    (putEntry name value entries).lookup key = entries.lookup key := by
  have hkey : (key == name) = false := beq_eq_false_iff_ne.2 h
  induction entries with
  | nil => cases value <;> simp [putEntry, List.lookup_cons, hkey]
  | cons entry rest ih =>
    obtain ⟨other, old⟩ := entry
    rw [putEntry]
    split
    · next hother =>
      subst hother
      cases value <;> simp [List.lookup_cons, hkey]
    · rw [List.lookup_cons, List.lookup_cons, ih]

theorem lookup_putEntry (name : Bytes) (node : Node) (entries : List (Bytes × Node)) :
    (putEntry name (some node) entries).lookup name = some node := by
  induction entries with
  | nil => simp [putEntry]
  | cons entry rest ih =>
    obtain ⟨key, old⟩ := entry
    rw [putEntry]
    split
    · simp
    · next hkey => rw [List.lookup_cons, beq_eq_false_iff_ne.2 (Ne.symm hkey), ih]

theorem lookup_putEntry_none (h : (entries.map Prod.fst).Nodup) :
    (putEntry name none entries).lookup name = none := by
  induction entries with
  | nil => rfl
  | cons entry rest ih =>
    obtain ⟨key, old⟩ := entry
    obtain ⟨hkey, hrest⟩ := List.nodup_cons.1 h
    rw [putEntry]
    split
    · next hname => exact lookup_of_not_mem (hname ▸ hkey)
    · next hname =>
      rw [List.lookup_cons, beq_eq_false_iff_ne.2 (Ne.symm hname)]
      exact ih hrest

theorem mem_of_mem_putEntry (h : key ∈ (putEntry name value entries).map Prod.fst) :
    key = name ∨ key ∈ entries.map Prod.fst := by
  induction entries with
  | nil =>
    cases value with
    | none => exact absurd h List.not_mem_nil
    | some node => exact Or.inl (List.mem_singleton.1 h)
  | cons entry rest ih =>
    obtain ⟨other, old⟩ := entry
    rw [putEntry] at h
    split at h
    · rw [List.map_append, List.mem_append] at h
      rcases h with h | h
      · cases value with
        | none => exact absurd h List.not_mem_nil
        | some node => exact Or.inl (List.mem_singleton.1 h)
      · exact Or.inr (List.mem_cons_of_mem other h)
    · rcases List.mem_cons.1 h with rfl | h
      · exact Or.inr List.mem_cons_self
      · exact (ih h).imp_right (List.mem_cons_of_mem other)

theorem nodup_putEntry (h : (entries.map Prod.fst).Nodup) :
    ((putEntry name value entries).map Prod.fst).Nodup := by
  induction entries with
  | nil => cases value <;> simp [putEntry]
  | cons entry rest ih =>
    obtain ⟨other, old⟩ := entry
    obtain ⟨hother, hrest⟩ := List.nodup_cons.1 h
    rw [putEntry]
    split
    · next hname =>
      subst hname
      cases value with
      | none => exact hrest
      | some node => exact h
    · next hname =>
      refine List.nodup_cons.2 ⟨fun hmem => ?_, ih hrest⟩
      exact (mem_of_mem_putEntry hmem).elim hname hother

theorem putEntry_of_not_mem {node : Node} (h : name ∉ entries.map Prod.fst) :
    putEntry name (some node) entries = entries ++ [(name, node)] := by
  induction entries with
  | nil => rfl
  | cons entry rest ih =>
    obtain ⟨hname, hrest⟩ := not_or.1 fun hmem => h (List.mem_cons.2 hmem)
    rw [putEntry, if_neg (Ne.symm hname), ih hrest, List.cons_append]

theorem putEntry_eq_self {node : Node} (h : entries.lookup name = some node) :
    putEntry name (some node) entries = entries := by
  induction entries with
  | nil => exact nomatch h
  | cons entry rest ih =>
    obtain ⟨key, old⟩ := entry
    rw [putEntry]
    split
    · next hkey =>
      subst hkey
      rw [List.lookup_cons, BEq.rfl] at h
      rw [Option.some.inj h]
      rfl
    · next hkey =>
      rw [List.lookup_cons, beq_eq_false_iff_ne.2 (Ne.symm hkey)] at h
      rw [ih h]

def bare : Node → Node
  | .dir mode _ => .dir mode []
  | n => n

theorem bare_eq_self (h : n.entries = []) : n.bare = n := by
  cases n with
  | dir mode entries =>
    obtain rfl : entries = [] := h
    rfl
  | _ => rfl

theorem at?_below_eq_none (h : ∀ old, n.at? location = some old → old.entries = [])
    (hrest : rest ≠ []) : n.at? (location ++ rest) = none := by
  obtain ⟨name, rest, rfl⟩ := List.exists_cons_of_ne_nil hrest
  rw [at?_append]
  cases hold : n.at? location with
  | none => rfl
  | some old =>
    rw [Option.bind_some, at?, child?, h old hold]
    rfl

theorem bare_put_cons : (n.put value (name :: rest)).bare = n.bare := by
  cases n <;> cases rest <;> rfl

theorem child?_put_of_ne (h : key ≠ name) :
    (n.put value (name :: rest)).child? key = n.child? key := by
  cases n with
  | dir mode entries =>
    cases rest with
    | nil => exact lookup_putEntry_of_ne h
    | cons next rest =>
      simp only [put, child?, Node.entries]
      split
      · exact lookup_putEntry_of_ne h
      · rfl
  | _ => cases rest <;> rfl

theorem child?_put_below {next : Bytes} : (n.put value (name :: next :: rest)).child? name =
    (n.child? name).map (put value (next :: rest)) := by
  cases n with
  | dir mode entries =>
    simp only [put, child?, Node.entries]
    split
    · next child hchild => rw [lookup_putEntry, hchild, Option.map_some]
    · next hnone => rw [hnone, Option.map_none]
  | _ => rfl

/-- Nothing changes but at the location and below it. -/
theorem at?_put_frame (h : ¬location <+: here) :
    ((n.put value location).at? here).map bare = (n.at? here).map bare := by
  induction location generalizing n here with
  | nil => exact absurd List.nil_prefix h
  | cons name rest ih =>
    cases here with
    | nil => exact congrArg some bare_put_cons
    | cons key here =>
      rw [at?, at?]
      by_cases hkey : key = name
      · subst hkey
        cases rest with
        | nil => exact absurd (List.cons_prefix_cons.2 ⟨rfl, List.nil_prefix⟩) h
        | cons next rest =>
          rw [child?_put_below]
          cases n.child? key with
          | none => rfl
          | some child => exact ih fun hrest => h (List.cons_prefix_cons.2 ⟨rfl, hrest⟩)
      · rw [child?_put_of_ne hkey]

theorem at?_put_of_ne {node : Node} (hold : ∀ old, n.at? location = some old → old.entries = [])
    (hnode : node.entries = [])
    (hput : (n.put (some node) location).at? location = some node) (hne : here ≠ location) :
    ((n.put (some node) location).at? here).map bare = (n.at? here).map bare := by
  by_cases hprefix : location <+: here
  · obtain ⟨rest, rfl⟩ := hprefix
    have hrest : rest ≠ [] := by simpa using hne
    have hnew : ∀ old, (n.put (some node) location).at? location = some old → old.entries = [] :=
      fun old hold => Option.some.inj (hput.symm.trans hold) ▸ hnode
    rw [at?_below_eq_none hold hrest, at?_below_eq_none hnew hrest]
  · exact at?_put_frame hprefix

theorem at?_put_parent (h : n.at? parent = some (.dir mode entries)) :
    (n.put value (parent ++ [name])).at? parent =
      some (.dir mode (putEntry name value entries)) := by
  induction parent generalizing n with
  | nil =>
    obtain rfl := Option.some.inj h
    rfl
  | cons key parent ih =>
    obtain ⟨child, hchild, h⟩ := Option.bind_eq_some_iff.1 h
    obtain ⟨next, rest, hrest⟩ : ∃ next rest, parent ++ [name] = next :: rest :=
      List.exists_cons_of_ne_nil (by simp)
    rw [List.cons_append, hrest, at?, child?_put_below, hchild, ← hrest]
    exact ih h

theorem exists_dir_of_at?_concat {node : Node} (h : n.at? (parent ++ [name]) = some node) :
    ∃ mode entries, n.at? parent = some (.dir mode entries) := by
  rw [at?_concat] at h
  obtain ⟨around, haround, hchild⟩ := Option.bind_eq_some_iff.1 h
  cases around with
  | dir mode entries => exact ⟨mode, entries, haround⟩
  | _ => exact nomatch hchild

theorem at?_put_some {node : Node} (h : n.at? parent = some (.dir mode entries)) :
    (n.put (some node) (parent ++ [name])).at? (parent ++ [name]) = some node := by
  rw [at?_concat, at?_put_parent h]
  exact lookup_putEntry name node entries

theorem at?_put_of_some {old new : Node} (h : n.at? location = some old) :
    (n.put (some new) location).at? location = some new := by
  rcases List.eq_nil_or_concat location with rfl | ⟨parent, name, rfl⟩
  · rfl
  · rw [List.concat_eq_append] at h ⊢
    obtain ⟨mode, entries, hparent⟩ := exists_dir_of_at?_concat h
    exact at?_put_some hparent

theorem put_eq_self {node : Node} (h : n.at? location = some node) :
    n.put (some node) location = n := by
  induction location generalizing n with
  | nil => exact (Option.some.inj h).symm
  | cons name rest ih =>
    obtain ⟨child, hchild, hbelow⟩ := Option.bind_eq_some_iff.1 h
    cases n with
    | dir mode entries =>
      have hlookup : entries.lookup name = some child := hchild
      cases rest with
      | nil =>
        obtain rfl := Option.some.inj hbelow
        rw [put, putEntry_eq_self hlookup]
      | cons next rest =>
        simp only [put, hlookup]
        rw [ih hbelow, putEntry_eq_self hlookup]
    | _ => cases rest <;> rfl

def NamesDistinct (n : Node) : Prop :=
  ∀ location node, n.at? location = some node → (node.entries.map Prod.fst).Nodup

theorem namesDistinct_iff : n.NamesDistinct ↔ (n.entries.map Prod.fst).Nodup ∧
    ∀ name child, n.child? name = some child → child.NamesDistinct := by
  constructor
  · refine fun h => ⟨h [] n rfl, fun name child hchild location node hnode => ?_⟩
    exact h (name :: location) node (by rw [at?, hchild]; exact hnode)
  · rintro ⟨hself, hbelow⟩ location node hnode
    cases location with
    | nil => exact Option.some.inj hnode ▸ hself
    | cons name rest =>
      obtain ⟨child, hchild, hnode⟩ := Option.bind_eq_some_iff.1 hnode
      exact hbelow name child hchild rest node hnode

theorem at?_put_none (h : n.NamesDistinct) (hlocation : location ≠ []) :
    (n.put none location).at? location = none := by
  induction location generalizing n with
  | nil => exact absurd rfl hlocation
  | cons name rest ih =>
    obtain ⟨hself, hbelow⟩ := namesDistinct_iff.1 h
    rw [at?]
    cases rest with
    | nil =>
      have hchild : (n.put none [name]).child? name = none := by
        cases n with
        | dir mode entries => exact lookup_putEntry_none hself
        | _ => rfl
      rw [hchild, Option.bind_none]
    | cons next rest =>
      rw [child?_put_below]
      cases hchild : n.child? name with
      | none => rfl
      | some child => exact ih (hbelow name child hchild) (List.cons_ne_nil next rest)

theorem namesDistinct_of_entries_eq_nil (h : n.entries = []) : n.NamesDistinct := by
  refine namesDistinct_iff.2 ⟨h ▸ List.nodup_nil, fun name child hchild => ?_⟩
  rw [child?, h] at hchild
  exact nomatch hchild

theorem NamesDistinct.put (h : n.NamesDistinct) (hvalue : ∀ new ∈ value, new.NamesDistinct)
    (location : Location) : (n.put value location).NamesDistinct := by
  induction location generalizing n with
  | nil =>
    cases value with
    | none => exact h
    | some new => exact hvalue new rfl
  | cons name rest ih =>
    obtain ⟨hself, hbelow⟩ := namesDistinct_iff.1 h
    refine namesDistinct_iff.2 ⟨?_, fun key child hchild => ?_⟩
    · cases n with
      | dir mode entries =>
        cases rest with
        | nil => exact nodup_putEntry hself
        | cons next rest =>
          simp only [Node.put, Node.entries]
          split
          · exact nodup_putEntry hself
          · exact hself
      | _ => cases rest <;> exact hself
    · by_cases hkey : key = name
      · subst hkey
        cases rest with
        | nil =>
          cases n with
          | dir mode entries =>
            cases value with
            | none => exact nomatch (lookup_putEntry_none hself).symm.trans hchild
            | some new =>
              exact hvalue child ((lookup_putEntry ..).symm.trans hchild)
          | _ => exact nomatch hchild
        | cons next rest =>
          rw [child?_put_below] at hchild
          obtain ⟨old, hold, rfl⟩ := Option.map_eq_some_iff.1 hchild
          exact ih (hbelow key old hold)
      · exact hbelow key child (child?_put_of_ne hkey ▸ hchild)

/-- All that is in the tree is in a later one, with the same contents of files; directories may
have more entries. -/
def Keeps (root later : Node) : Prop :=
  ∀ location node, root.at? location = some node →
    ∃ kept, later.at? location = some kept ∧ kept.bare = node.bare

theorem Keeps.refl (root : Node) : root.Keeps root := fun _ node h => ⟨node, h, rfl⟩

theorem Keeps.trans (h : root.Keeps later) (hlast : later.Keeps last) : root.Keeps last := by
  intro location node hnode
  obtain ⟨kept, hkept, hbare⟩ := h location node hnode
  obtain ⟨final, hfinal, hbare'⟩ := hlast location kept hkept
  exact ⟨final, hfinal, hbare'.trans hbare⟩

theorem Keeps.at?_eq_none (h : root.Keeps later) (hnone : later.at? location = none) :
    root.at? location = none := by
  refine Option.eq_none_iff_forall_ne_some.2 fun node hnode => ?_
  obtain ⟨kept, hkept, -⟩ := h location node hnode
  exact nomatch hnone.symm.trans hkept

theorem exists_of_map_bare_eq {found kept : Option Node} {node : Node}
    (h : kept.map bare = found.map bare) (hfound : found = some node) :
    ∃ same, kept = some same ∧ same.bare = node.bare := by
  subst hfound
  exact Option.map_eq_some_iff.1 h

def outline : Node → Node
  | .dir mode _ => .dir mode []
  | .file .. => .file [] 0
  | n => n

theorem outline_of_bare {kept node : Node} (h : kept.bare = node.bare) :
    kept.outline = node.outline := by
  have hsame : ∀ n : Node, n.bare.outline = n.outline := by
    intro n
    cases n <;> rfl
  rw [← hsame kept, h, hsame]

/-- All that a path can go through in the tree is in a later one as well; files may have other
contents. -/
def KeepsWays (root later : Node) : Prop :=
  ∀ location node, root.at? location = some node →
    ∃ kept, later.at? location = some kept ∧ kept.outline = node.outline

theorem KeepsWays.trans (h : root.KeepsWays later) (hlast : later.KeepsWays last) :
    root.KeepsWays last := by
  intro location node hnode
  obtain ⟨kept, hkept, houtline⟩ := h location node hnode
  obtain ⟨final, hfinal, houtline'⟩ := hlast location kept hkept
  exact ⟨final, hfinal, houtline'.trans houtline⟩

theorem Keeps.ways (h : root.Keeps later) : root.KeepsWays later := by
  intro location node hnode
  obtain ⟨kept, hkept, hbare⟩ := h location node hnode
  exact ⟨kept, hkept, outline_of_bare hbare⟩

theorem keeps_put (h : n.at? location = none) (value : Option Node) :
    n.Keeps (n.put value location) := by
  intro here node hnode
  refine exists_of_map_bare_eq (at?_put_frame fun hprefix => ?_) hnode
  obtain ⟨rest, rfl⟩ := hprefix
  rw [at?_append, h] at hnode
  exact nomatch hnode

theorem keepsWays_put_file {content more : Bytes} {other : Nat}
    (h : n.at? location = some (.file content mode)) :
    n.KeepsWays (n.put (some (.file more other)) location) := by
  intro here node hnode
  by_cases hprefix : location <+: here
  · obtain ⟨rest, rfl⟩ := hprefix
    rw [at?_append, h, Option.bind_some] at hnode
    cases rest with
    | nil =>
      obtain rfl := Option.some.inj hnode
      rw [List.append_nil]
      exact ⟨_, at?_put_of_some h, rfl⟩
    | cons name rest => exact nomatch hnode
  · obtain ⟨kept, hkept, hbare⟩ := exists_of_map_bare_eq (at?_put_frame hprefix) hnode
    exact ⟨kept, hkept, outline_of_bare hbare⟩

end Node
end MergeTrial
