import MergeTrial.Proofs.FileTree.Tree

/-! Trees that differ in nothing but the order in which their directories list what they hold. -/

namespace MergeTrial.Node

theorem namesDistinct_dir_iff {mode : Nat} {entries : List (Bytes × Node)} :
    (Node.dir mode entries).NamesDistinct ↔
      (entries.map Prod.fst).Nodup ∧ ∀ entry ∈ entries, entry.2.NamesDistinct := by
  rw [namesDistinct_iff]
  refine and_congr_right fun hnames => ?_
  constructor
  · rintro hbelow ⟨name, node⟩ hmem
    exact hbelow name node ((lookup_eq_some_iff hnames).2 hmem)
  · intro hbelow name node hchild
    exact hbelow (name, node) ((lookup_eq_some_iff hnames).1 hchild)

/-- A directory lists its entries in another order, or one further down does. -/
inductive Relisted : Node → Node → Prop
  | refl (n : Node) : Relisted n n
  | trans {l m n} : Relisted l m → Relisted m n → Relisted l n
  | order {mode entries entries'} : entries.Perm entries' →
    Relisted (.dir mode entries) (.dir mode entries')
  | inside {mode before name node node' after} : Relisted node node' →
    Relisted (.dir mode (before ++ (name, node) :: after))
      (.dir mode (before ++ (name, node') :: after))

namespace Relisted
variable {m n : Node} {name : Bytes} {node : Node}

theorem symm (h : Relisted m n) : Relisted n m := by
  induction h with
  | refl n => exact .refl n
  | trans _ _ ih ih' => exact .trans ih' ih
  | order hperm => exact .order hperm.symm
  | inside _ ih => exact .inside ih

theorem bare_eq (h : Relisted m n) : m.bare = n.bare := by
  induction h with
  | refl => rfl
  | trans _ _ ih ih' => exact ih.trans ih'
  | order => rfl
  | inside => rfl

theorem exists_entry (h : Relisted m n) (hmem : (name, node) ∈ m.entries) :
    ∃ node', (name, node') ∈ n.entries ∧ Relisted node node' := by
  induction h generalizing node with
  | refl => exact ⟨node, hmem, .refl node⟩
  | trans _ _ ih ih' =>
    obtain ⟨middle, hmiddle, h⟩ := ih hmem
    obtain ⟨last, hlast, h'⟩ := ih' hmiddle
    exact ⟨last, hlast, .trans h h'⟩
  | order hperm => exact ⟨node, hperm.mem_iff.1 hmem, .refl node⟩
  | inside h =>
    simp only [Node.entries, List.mem_append, List.mem_cons] at hmem ⊢
    rcases hmem with hmem | heq | hmem
    · exact ⟨node, Or.inl hmem, .refl node⟩
    · obtain ⟨rfl, rfl⟩ := Prod.mk.inj heq
      exact ⟨_, Or.inr (Or.inl rfl), h⟩
    · exact ⟨node, Or.inr (Or.inr hmem), .refl node⟩

theorem namesDistinct (h : Relisted m n) (hm : m.NamesDistinct) : n.NamesDistinct := by
  induction h with
  | refl => exact hm
  | trans _ _ ih ih' => exact ih' (ih hm)
  | order hperm =>
    obtain ⟨hnames, hbelow⟩ := namesDistinct_dir_iff.1 hm
    have hnames' := (hperm.map Prod.fst).nodup_iff.1 hnames
    refine namesDistinct_dir_iff.2 ⟨hnames', fun entry hentry => ?_⟩
    exact hbelow entry (hperm.mem_iff.2 hentry)
  | inside _ ih =>
    rw [namesDistinct_dir_iff] at hm ⊢
    simp only [List.map_append, List.map_cons, List.mem_append, List.mem_cons] at hm ⊢
    refine ⟨hm.1, fun entry hentry => ?_⟩
    rcases hentry with hentry | rfl | hentry
    · exact hm.2 entry (Or.inl hentry)
    · exact ih (hm.2 _ (Or.inr (Or.inl rfl)))
    · exact hm.2 entry (Or.inr (Or.inr hentry))

variable {mode : Nat} {entries : List (Bytes × Node)}

theorem eq_dir (h : Relisted (.dir mode entries) n) : ∃ entries', n = .dir mode entries' := by
  have hbare := h.bare_eq
  cases n with
  | dir mode' entries' =>
    obtain ⟨rfl, -⟩ := Node.dir.inj hbare
    exact ⟨entries', rfl⟩
  | _ => exact nomatch hbare

theorem isFile_eq (h : Relisted m n) : m.isFile = n.isFile := by
  have hbare : ∀ n : Node, n.bare.isFile = n.isFile := by
    intro n
    cases n <;> rfl
  rw [← hbare m, h.bare_eq, hbare n]

theorem text_eq (h : Relisted m n) : m.text = n.text := by
  have hbare : ∀ n : Node, n.bare.text = n.text := by
    intro n
    cases n <;> rfl
  rw [← hbare m, h.bare_eq, hbare n]

end Relisted
end MergeTrial.Node
