import MergeTrial.Proofs.FileTree.Writing

/-! Making the directories that a path leads through. Where a path leads on from a directory, making
that directory changes nothing. -/

namespace MergeTrial

namespace Path

theorem not_mem_of_mem_splitOn {sep : UInt8} {bytes segment : Bytes}
    (h : segment ∈ splitOn sep bytes) : sep ∉ segment ∧ ∀ b ∈ segment, b ∈ bytes := by
  induction bytes generalizing segment with
  | nil =>
    obtain rfl := List.mem_singleton.1 h
    exact ⟨List.not_mem_nil, fun _ hb => absurd hb List.not_mem_nil⟩
  | cons b bytes ih =>
    by_cases hb : b = sep
    · rw [splitOn, if_pos hb] at h
      rcases List.mem_cons.1 h with rfl | h
      · exact ⟨List.not_mem_nil, fun _ hb => absurd hb List.not_mem_nil⟩
      · exact ⟨(ih h).1, fun c hc => List.mem_cons_of_mem b ((ih h).2 c hc)⟩
    · obtain ⟨first, rest, hbytes, hcons⟩ := splitOn_cons_of_ne hb bytes
      rw [hcons] at h
      rw [hbytes] at ih
      rcases List.mem_cons.1 h with rfl | h
      · obtain ⟨hsep, hfirst⟩ := ih List.mem_cons_self
        refine ⟨fun hmem => (List.mem_cons.1 hmem).elim (Ne.symm hb) hsep, fun c hc => ?_⟩
        exact List.mem_cons.2 ((List.mem_cons.1 hc).imp_right (hfirst c))
      · obtain ⟨hsep, hrest⟩ := ih (List.mem_cons_of_mem first h)
        exact ⟨hsep, fun c hc => List.mem_cons_of_mem b (hrest c hc)⟩

section Joining
variable {sep : UInt8} {segments more : List Bytes}

theorem flatten_intersperse_splitOn (sep : UInt8) (bytes : Bytes) :
    ((splitOn sep bytes).intersperse [sep]).flatten = bytes := by
  induction bytes with
  | nil => rfl
  | cons b bytes ih =>
    obtain ⟨first, rest, hsplit⟩ := List.exists_cons_of_ne_nil (splitOn_ne_nil sep bytes)
    rw [hsplit] at ih
    by_cases hb : b = sep
    · rw [splitOn, if_pos hb, hsplit, List.intersperse_cons_cons, List.flatten_cons,
        List.flatten_cons, ih, hb]
      rfl
    · rw [splitOn, if_neg hb, hsplit]
      cases rest with
      | nil => exact congrArg (b :: ·) ih
      | cons second rest => exact congrArg (b :: ·) ih

theorem splitOn_flatten_intersperse (hsegments : segments ≠ []) (hsep : ∀ s ∈ segments, sep ∉ s) :
    splitOn sep (segments.intersperse [sep]).flatten = segments := by
  induction segments with
  | nil => exact absurd rfl hsegments
  | cons first rest ih =>
    obtain ⟨hfirst, hrest⟩ := List.forall_mem_cons.1 hsep
    cases rest with
    | nil => simpa using splitOn_of_not_mem hfirst
    | cons second rest =>
      rw [List.intersperse_cons_cons, List.flatten_cons, List.flatten_cons, List.singleton_append,
        splitOn_append_cons, splitOn_of_not_mem hfirst, ih (List.cons_ne_nil _ _) hrest]
      rfl

theorem flatten_intersperse_append :
    (segments.intersperse [sep]).flatten <+: ((segments ++ more).intersperse [sep]).flatten := by
  induction segments with
  | nil => exact List.nil_prefix
  | cons first rest ih =>
    cases rest with
    | nil => cases more <;> simp
    | cons second rest => simpa using ih

end Joining

end Path

namespace Node
variable {root : Node} {here next : Location} {segment : Bytes} {segments front rest : List Bytes}
  {place : Place} {mode links more : Nat} {entries : List (Bytes × Node)}

theorem exists_dir_of_at?_dropLast (h : root.at? here = some (.dir mode entries)) :
    ∃ mode entries, root.at? here.dropLast = some (.dir mode entries) := by
  rcases List.eq_nil_or_concat here with rfl | ⟨parent, name, rfl⟩
  · exact ⟨mode, entries, h⟩
  · rw [List.concat_eq_append] at h ⊢
    rw [List.dropLast_concat]
    exact exists_dir_of_at?_concat h

theorem Walks.mono (h : Walks root links here segments place) (hle : links ≤ more) :
    Walks root more here segments place := by
  induction h generalizing more with
  | done => exact .done
  | link h _ ih =>
    obtain ⟨more, rfl⟩ := Nat.exists_eq_add_of_lt (Nat.lt_of_lt_of_le (Nat.lt_succ_self _) hle)
    exact .link h (ih (by omega))
  | stay h hstay _ ih => exact .stay h hstay (ih hle)
  | up h _ ih => exact .up h (ih hle)
  | down h henters hdown _ ih => exact .down h henters hdown (ih hle)
  | ends h henters hlink _ ih =>
    obtain ⟨more, rfl⟩ := Nat.exists_eq_add_of_lt (Nat.lt_of_lt_of_le (Nat.lt_succ_self _) hle)
    exact .ends h henters hlink (ih (by omega))

theorem Walks.dir_or_link (h : Walks root links here segments place) (hsegments : segments ≠ []) :
    (∃ mode entries, root.at? here = some (.dir mode entries)) ∨
      ∃ target fewer, root.at? here = some (.special (.link target)) ∧ links = fewer + 1 ∧
        Walks root fewer (if Path.isAbsolute target then [] else here.dropLast)
          (Path.segments target ++ segments) place := by
  cases h with
  | done => exact absurd rfl hsegments
  | link h hwalks => exact Or.inr ⟨_, _, h, rfl, hwalks⟩
  | stay h | up h | down h | ends h => exact Or.inl ⟨_, _, h⟩

theorem Walks.split (h : Walks root links here (front ++ rest) place) (hfront : front ≠ [])
    (hrest : rest ≠ []) : ∃ next mode entries fewer, fewer ≤ links ∧
      root.at? next = some (.dir mode entries) ∧ Walks root fewer next rest place ∧
      Walks root links here front ⟨next, some (.dir mode entries)⟩ := by
  -- on the links that are left, and then on the first segments: a link starts these anew
  induction links using Nat.strongRecOn generalizing here front with
  | ind links hlinks =>
  induction front generalizing here with
  | nil => exact absurd rfl hfront
  | cons segment front ih =>
    have honward : ∀ {next mode entries}, root.at? next = some (.dir mode entries) →
        Walks root links next (front ++ rest) place → ∃ last mode entries fewer, fewer ≤ links ∧
          root.at? last = some (.dir mode entries) ∧ Walks root fewer last rest place ∧
          Walks root links next front ⟨last, some (.dir mode entries)⟩ := by
      intro next mode entries hnext hwalks
      by_cases hempty : front = []
      · subst hempty
        exact ⟨next, mode, entries, links, Nat.le_refl _, hnext, hwalks, hnext ▸ .done⟩
      · exact ih hwalks hempty
    have hmore : front ++ rest ≠ [] := fun hnil => hrest (List.append_eq_nil_iff.1 hnil).2
    generalize hothers : front ++ rest = others at honward hmore h
    rw [List.cons_append, hothers] at h
    cases h with
    | @link fewer _ target _ _ _ h hwalks =>
      rw [← hothers, ← List.cons_append, ← List.append_assoc] at hwalks
      obtain ⟨next, mode, entries, least, hle, hnext, hlast, hfirst⟩ :=
        hlinks fewer (Nat.lt_succ_self _) hwalks (by simp)
      exact ⟨next, mode, entries, least, Nat.le_succ_of_le hle, hnext, hlast, .link h hfirst⟩
    | stay h hstay hwalks =>
      obtain ⟨next, mode, entries, fewer, hle, hnext, hlast, hfirst⟩ := honward h hwalks
      exact ⟨next, mode, entries, fewer, hle, hnext, hlast, .stay h hstay hfirst⟩
    | up h hwalks =>
      obtain ⟨mode, entries, haround⟩ := exists_dir_of_at?_dropLast h
      obtain ⟨next, mode, entries, fewer, hle, hnext, hlast, hfirst⟩ := honward haround hwalks
      exact ⟨next, mode, entries, fewer, hle, hnext, hlast, .up h hfirst⟩
    | ends => exact absurd rfl hmore
    | @down _ _ mode entries _ _ _ h henters hdown hwalks =>
      have hthere : root.at? (here ++ [segment]) = entries.lookup segment := by
        rw [at?_concat, h]
        rfl
      rcases hwalks.dir_or_link hmore with ⟨_, _, hdir⟩ | ⟨target, fewer, hlink, rfl, hjump⟩
      · obtain ⟨next, mode, entries, fewer, hle, hnext, hlast, hfirst⟩ := honward hdir hwalks
        refine ⟨next, mode, entries, fewer, hle, hnext, hlast, .down h henters ?_ hfirst⟩
        rintro ⟨-, target, hlink⟩
        exact nomatch hdir.symm.trans (hthere.trans hlink)
      · rw [← hothers, ← List.append_assoc] at hjump
        have hsome : Path.segments target ++ front ≠ [] := fun hnil =>
          Path.splitOn_ne_nil _ _ (List.append_eq_nil_iff.1 hnil).1
        obtain ⟨next, mode, entries, least, hle, hnext, hlast, hfirst⟩ :=
          hlinks fewer (Nat.lt_succ_self _) hjump hsome
        refine ⟨next, mode, entries, least, Nat.le_succ_of_le hle, hnext, hlast, ?_⟩
        cases front with
        | nil =>
          rw [List.append_nil, List.dropLast_concat] at hfirst
          exact .ends h henters (hthere.symm.trans hlink) hfirst
        | cons second front =>
          exact .down h henters (fun hends => nomatch hends.1) (.link hlink hfirst)

theorem Walks.eq_of_nil (h : Walks root links here [] place) : place = ⟨here, root.at? here⟩ := by
  cases h
  rfl

def IsSegment (segment : Bytes) : Prop := Path.slash ∉ segment ∧ (0 : UInt8) ∉ segment

structure IsEntryName (name : Bytes) : Prop extends Path.IsName name where
  short : name.length ≤ maxName

theorem Enters.isEntryName (h : Enters mode segment) : IsEntryName segment where
  ne_nil := fun hnil => h.not_stay (Or.inl hnil)
  ne_dot := fun hdot => h.not_stay (Or.inr hdot)
  ne_up := h.not_up
  short := h.short

theorem resolve_segment (h : Walks root links here [segment] place) (hlinks : links ≤ maxLinks)
    (hname : IsEntryName segment) (hsegment : IsSegment segment) :
    root.resolve here segment = .ok place := by
  obtain ⟨hslash, hnul⟩ := hsegment
  have hlength : segment.length ≤ maxPath := Nat.le_trans hname.short (by decide)
  refine resolve_eq_ok_iff.2 ⟨⟨hname.ne_nil, by simpa using hnul, hlength⟩, ?_⟩
  rw [Path.not_absolute_of_not_mem hslash, Path.segments, Path.splitOn_of_not_mem hslash]
  exact h.mono hlinks

end Node

namespace Machine
open Node
variable {m after : Machine} {here next : Location} {segment : Bytes} {front rest : List Bytes}
  {segments : List Bytes} {last : Bytes} {path : Path} {place : Place} {mode links : Nat}
  {entries : List (Bytes × Node)} {result : Except FileFault Unit}

theorem makeDirsFrom_stay (hstay : segment = [] ∨ segment = [Path.dot]) :
    makeDirsFrom here (segment :: rest) = makeDirsFrom here rest := by
  rw [makeDirsFrom, if_pos hstay]

theorem makeDirsFrom_up :
    makeDirsFrom here ([Path.dot, Path.dot] :: rest) = makeDirsFrom here.dropLast rest := rfl

theorem does_makeDirsFrom_dir (hname : IsEntryName segment)
    (h : m.root.resolve here segment = .ok ⟨next, some (.dir mode entries)⟩) :
    FileAction.Does (makeDirsFrom here (segment :: rest)) m result after ↔
      FileAction.Does (makeDirsFrom next rest) m result after := by
  rw [makeDirsFrom, if_neg (not_or.2 ⟨hname.ne_nil, hname.ne_dot⟩), if_neg hname.ne_up,
    if_neg (Nat.not_lt.2 hname.short), FileAction.does_get_bind_iff, h]

theorem makeDirsFrom_append (h : Walks m.root links here (front ++ rest) place) (hrest : rest ≠ [])
    (hlinks : links ≤ maxLinks) (hhere : m.root.at? here = some (.dir mode entries))
    (hfront : ∀ segment ∈ front, IsSegment segment) : ∃ next mode entries fewer, fewer ≤ links ∧
      m.root.at? next = some (.dir mode entries) ∧ Walks m.root fewer next rest place ∧
      ∀ more result after, FileAction.Does (makeDirsFrom here (front ++ more)) m result after ↔
        FileAction.Does (makeDirsFrom next more) m result after := by
  induction front generalizing here links mode entries with
  | nil => exact ⟨here, mode, entries, links, Nat.le_refl _, hhere, h, fun _ _ _ => Iff.rfl⟩
  | cons segment front ih =>
    obtain ⟨hsegment, hothers⟩ := List.forall_mem_cons.1 hfront
    have hwalks : Walks m.root links here ([segment] ++ (front ++ rest)) place := h
    obtain ⟨further, _, _, less, hless, hfurther, honward, hfirst⟩ :=
      hwalks.split (List.cons_ne_nil segment [])
        fun hnil => hrest (List.append_eq_nil_iff.1 hnil).2
    -- one step is the same for making as for walking
    have hstep : ∀ more result after,
        FileAction.Does (makeDirsFrom here (segment :: more)) m result after ↔
          FileAction.Does (makeDirsFrom further more) m result after := by
      intro more result after
      have hresolve : ∀ {mode}, Enters mode segment →
          m.root.resolve here segment = .ok ⟨further, _⟩ := fun henters =>
        resolve_segment hfirst hlinks henters.isEntryName hsegment
      cases hfirst with
      | link h => exact nomatch hhere.symm.trans h
      | stay h hstay hdone =>
        obtain rfl := congrArg Place.location hdone.eq_of_nil
        rw [makeDirsFrom_stay hstay]
      | up h hdone =>
        obtain rfl := congrArg Place.location hdone.eq_of_nil
        rw [makeDirsFrom_up]
      | down h henters => exact does_makeDirsFrom_dir henters.isEntryName (hresolve henters)
      | ends h henters => exact does_makeDirsFrom_dir henters.isEntryName (hresolve henters)
    obtain ⟨next, mode, entries, fewer, hle, hnext, hlast, hmake⟩ :=
      ih honward (Nat.le_trans hless hlinks) hfurther hothers
    refine ⟨next, mode, entries, fewer, Nat.le_trans hle hless, hnext, hlast, ?_⟩
    intro more result after
    exact (hstep (front ++ more) result after).trans (hmake more result after)

theorem exists_last_step (h : Walks m.root links here segments place)
    (hhere : m.root.at? here = some (.dir mode entries))
    (hplace : ∀ node ∈ place.node, node.isDir = false) : ∃ front last next mode entries fewer,
      segments = front ++ [last] ∧ IsEntryName last ∧ fewer ≤ links ∧
      m.root.at? next = some (.dir mode entries) ∧ Walks m.root fewer next [last] place := by
  have hnode : ∀ {location mode entries}, m.root.at? location = some (.dir mode entries) →
      place ≠ ⟨location, m.root.at? location⟩ := by
    rintro location mode entries hdir rfl
    exact nomatch hplace _ hdir
  rcases List.eq_nil_or_concat segments with rfl | ⟨front, last, rfl⟩
  · exact absurd h.eq_of_nil (hnode hhere)
  rw [List.concat_eq_append] at h ⊢
  have hlast : ∃ next mode entries fewer, fewer ≤ links ∧
      m.root.at? next = some (.dir mode entries) ∧ Walks m.root fewer next [last] place := by
    by_cases hfront : front = []
    · subst hfront
      exact ⟨here, mode, entries, links, Nat.le_refl _, hhere, h⟩
    · obtain ⟨next, mode, entries, fewer, hle, hnext, hlast, -⟩ :=
        h.split hfront (List.cons_ne_nil last [])
      exact ⟨next, mode, entries, fewer, hle, hnext, hlast⟩
  obtain ⟨next, mode, entries, fewer, hle, hnext, hlast⟩ := hlast
  refine ⟨front, last, next, mode, entries, fewer, rfl, ?_, hle, hnext, hlast⟩
  cases hlast with
  | link h => exact nomatch hnext.symm.trans h
  | stay _ _ hdone => exact absurd hdone.eq_of_nil (hnode hnext)
  | up _ hdone =>
    obtain ⟨_, _, haround⟩ := exists_dir_of_at?_dropLast hnext
    exact absurd hdone.eq_of_nil (hnode haround)
  | down _ henters => exact henters.isEntryName
  | ends _ henters => exact henters.isEntryName

theorem does_makeDirsFrom_blank (h : ∀ segment ∈ segments, segment = []) :
    FileAction.Does (makeDirsFrom here segments) m (.ok ()) m := by
  induction segments with
  | nil => exact FileAction.does_pure_iff.2 ⟨rfl, rfl⟩
  | cons segment rest ih =>
    obtain ⟨hsegment, hrest⟩ := List.forall_mem_cons.1 h
    rw [makeDirsFrom_stay (Or.inl hsegment)]
    exact ih hrest

theorem exists_parent (h : Path.segments path = front ++ [last]) (hlast : Path.IsName last) :
    ∃ parent, parent? path = some parent ∧ parent <+: path ∧
      parent.isAbsolute = path.isAbsolute ∧ ((∃ rest, front = Path.segments parent ++ rest) ∨
        ∀ segment ∈ Path.segments parent, segment = []) := by
  have hdrop : (front ++ [last]).reverse.dropWhile (fun s => s.isEmpty || s == [Path.dot]) =
      last :: front.reverse := by
    rw [List.reverse_concat, List.dropWhile_cons_of_neg]
    simp [hlast.ne_nil, hlast.ne_dot]
  have hplain := List.head?_dropWhile_not (fun s => s.isEmpty || s == [Path.dot]) front.reverse
  obtain ⟨blanks, hblanks⟩ := List.dropWhile_suffix (l := front.reverse)
    (fun s => s.isEmpty || s == [Path.dot])
  rw [parent?, h, hdrop]
  simp only
  generalize front.reverse.dropWhile (fun s => s.isEmpty || s == [Path.dot]) = above
    at hplain hblanks
  cases above with
  | nil =>
    cases habsolute : path.isAbsolute with
    | true =>
      obtain ⟨rest, rfl⟩ : ∃ rest, path = Path.slash :: rest :=
        List.head?_eq_some_iff.1 (eq_of_beq habsolute)
      exact ⟨[Path.slash], rfl, ⟨rest, rfl⟩, rfl, Or.inr (by decide)⟩
    | false => exact ⟨[], rfl, List.nil_prefix, rfl, Or.inr (by decide)⟩
  | cons name others =>
    have hfront : front = (name :: others).reverse ++ blanks.reverse := by
      rw [← List.reverse_append, hblanks, List.reverse_reverse]
    have hname : name ≠ [] := by
      rintro rfl
      exact nomatch hplain
    have hsegments : ∀ segment ∈ (name :: others).reverse, Path.slash ∉ segment := by
      intro segment hmem
      have hpath : segment ∈ Path.segments path := by
        rw [h, hfront]
        exact List.mem_append_left _ (List.mem_append_left _ hmem)
      exact (Path.not_mem_of_mem_splitOn hpath).1
    have hparent := Path.splitOn_flatten_intersperse (by simp) hsegments
    have hprefix : ((name :: others).reverse.intersperse [Path.slash]).flatten <+: path := by
      rw [← Path.flatten_intersperse_splitOn Path.slash path]
      rw [show Path.splitOn Path.slash path = _ from h, hfront, List.append_assoc]
      exact Path.flatten_intersperse_append
    refine ⟨_, rfl, hprefix, ?_, Or.inl ⟨blanks.reverse, hfront.trans ?_⟩⟩
    case refine_2 => exact congrArg (· ++ blanks.reverse) hparent.symm
    obtain ⟨more, rfl⟩ := hprefix
    generalize ((name :: others).reverse.intersperse [Path.slash]).flatten = parent at hparent ⊢
    cases parent with
    | nil =>
      have hone : [[]] = (name :: others).reverse := hparent
      exact absurd (List.mem_singleton.1 (hone ▸ by simp : name ∈ [[]])) hname
    | cons b parent => rfl

def HasCwd (m : Machine) : Prop := ∃ mode entries, m.root.at? m.cwd = some (.dir mode entries)

theorem HasCwd.start (h : m.HasCwd) (absolute : Bool) : ∃ mode entries,
    m.root.at? (if absolute then [] else m.cwd) = some (.dir mode entries) := by
  obtain ⟨mode, entries, hcwd⟩ := h
  cases absolute with
  | false => exact ⟨mode, entries, hcwd⟩
  | true =>
    cases hroot : m.root with
    | dir mode entries => exact ⟨mode, entries, rfl⟩
    | _ =>
      rw [hroot] at hcwd
      cases hlocation : m.cwd <;> rw [hlocation] at hcwd <;> exact nomatch hcwd

theorem does_makeDirs_parent (h : m.resolve path = .ok place)
    (hplace : ∀ node ∈ place.node, node.isDir = false) (hcwd : m.HasCwd) :
    ∃ parent, parent? path = some parent ∧ FileAction.Does (makeDirs parent) m (.ok ()) m := by
  obtain ⟨⟨-, hnul, hshort⟩, hwalks⟩ := resolve_eq_ok_iff.1 h
  obtain ⟨mode, entries, hhere⟩ := hcwd.start path.isAbsolute
  obtain ⟨front, last, -, -, -, -, hsegments, hlast, -⟩ := exists_last_step hwalks hhere hplace
  obtain ⟨parent, hparent, hprefix, habsolute, hrest⟩ := exists_parent hsegments hlast.toIsName
  have hnul' : ∀ {bytes : Bytes}, bytes <:+: path → (0 : UInt8) ∉ bytes := fun hwithin hmem => by
    simp [hwithin.subset hmem] at hnul
  refine ⟨parent, hparent, ?_⟩
  rw [makeDirs, FileAction.does_get_bind_iff, if_neg (by simpa using hnul' hprefix.isInfix),
    if_neg (Nat.not_lt.2 (Nat.le_trans hprefix.length_le hshort)), habsolute]
  rcases hrest with ⟨rest, rfl⟩ | hblank
  · rw [hsegments, List.append_assoc] at hwalks
    have hplain : ∀ segment ∈ Path.segments parent, IsSegment segment := fun segment hmem =>
      ⟨(Path.not_mem_of_mem_splitOn hmem).1, fun hzero =>
        hnul' hprefix.isInfix ((Path.not_mem_of_mem_splitOn hmem).2 0 hzero)⟩
    obtain ⟨next, -, -, -, -, -, -, hmake⟩ :=
      makeDirsFrom_append hwalks (by simp) (Nat.le_refl _) hhere hplain
    rw [← List.append_nil (Path.segments parent)]
    exact (hmake [] _ _).2 (FileAction.does_pure_iff.2 ⟨rfl, rfl⟩)
  · exact does_makeDirsFrom_blank hblank

end Machine
end MergeTrial
