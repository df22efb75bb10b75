import MergeTrial.Fault
import MergeTrial.Proofs.FileTree.Walking

/-! What is written where, and that making directories and new files takes nothing away. -/

namespace MergeTrial

namespace FileAction
variable {α β : Type} {m after : Machine}

/-- The action comes to the result and leaves the machine behind, also when it fails. -/
def Does (action : FileAction α) (m : Machine) (result : Except FileFault α)
    (after : Machine) : Prop := (action.run.run m).run = (result, after)

theorem Does.unique {action : FileAction α} {result result' : Except FileFault α}
    {after' : Machine} (h : Does action m result after) (h' : Does action m result' after') :
    result = result' ∧ after = after' :=
  Prod.mk.inj (h.symm.trans h')

theorem does_pure_iff {value : α} {result : Except FileFault α} :
    Does (pure value) m result after ↔ result = .ok value ∧ after = m := by
  exact Prod.ext_iff.trans (and_congr eq_comm eq_comm)

theorem does_throw_iff {fault : FileFault} {result : Except FileFault α} :
    Does (throw fault) m result after ↔ result = .error fault ∧ after = m := by
  exact Prod.ext_iff.trans (and_congr eq_comm eq_comm)

theorem not_does_throw_ok {fault : FileFault} {value : α} :
    ¬Does (throw fault) m (.ok value) after := by
  rw [does_throw_iff]
  rintro ⟨h, -⟩
  cases h

theorem does_get_bind_iff {next : Machine → FileAction β} {result : Except FileFault β} :
    Does (get >>= next) m result after ↔ Does (next m) m result after := Iff.rfl

theorem does_set_iff {s : Machine} {result : Except FileFault PUnit} :
    Does (set s) m result after ↔ result = .ok ⟨⟩ ∧ after = s :=
  Prod.ext_iff.trans (and_congr eq_comm eq_comm)

theorem does_set_bind_iff {s : Machine} {next : PUnit → FileAction β}
    {result : Except FileFault β} :
    Does (set s >>= next) m result after ↔ Does (next ⟨⟩) s result after := Iff.rfl

theorem does_bind_iff {first : FileAction α} {next : α → FileAction β}
    {result : Except FileFault β} : Does (first >>= next) m result after ↔
      (∃ value between, Does first m (.ok value) between ∧ Does (next value) between result after) ∨
      ∃ fault, Does first m (.error fault) after ∧ result = .error fault := by
  have hrun : ((first >>= next).run.run m).run = match (first.run.run m).run with
      | (.ok value, between) => ((next value).run.run between).run
      | (.error fault, between) => (.error fault, between) := by
    rw [ExceptT.run_bind, StateT.run_bind]
    rcases first.run.run m with ⟨fault | value, between⟩ <;> rfl
  unfold Does
  rw [hrun]
  rcases (first.run.run m).run with ⟨fault | value, between⟩
  · constructor
    · intro h
      obtain ⟨rfl, rfl⟩ := Prod.mk.inj h
      exact Or.inr ⟨fault, rfl, rfl⟩
    · rintro (⟨_, _, h, -⟩ | ⟨_, h, rfl⟩)
      · exact nomatch h
      · obtain ⟨hfault, rfl⟩ := Prod.mk.inj h
        obtain rfl := Except.error.inj hfault
        rfl
  · constructor
    · exact fun h => Or.inl ⟨value, between, rfl, h⟩
    · rintro (⟨_, _, h, hnext⟩ | ⟨_, h, -⟩)
      · obtain ⟨hvalue, rfl⟩ := Prod.mk.inj h
        obtain rfl := Except.ok.inj hvalue
        exact hnext
      · exact nomatch h

theorem Does.exists_of_bind {first : FileAction α} {next : α → FileAction β} {value : β}
    (h : Does (first >>= next) m (.ok value) after) : ∃ made between,
      Does first m (.ok made) between ∧ Does (next made) between (.ok value) after := by
  rcases does_bind_iff.1 h with hdone | ⟨_, -, hfails⟩
  · exact hdone
  · exact nomatch hfails

end FileAction

namespace Machine
variable {m after last : Machine} {path : Path} {place : Node.Place}

structure Grows (m after : Machine) : Prop where
  cwd : after.cwd = m.cwd
  mask : after.mask = m.mask
  keeps : m.root.Keeps after.root
  distinct : m.root.NamesDistinct → after.root.NamesDistinct

theorem Grows.refl (m : Machine) : m.Grows m := ⟨rfl, rfl, .refl m.root, id⟩

theorem Grows.trans (h : m.Grows after) (hlast : after.Grows last) : m.Grows last where
  cwd := hlast.cwd.trans h.cwd
  mask := hlast.mask.trans h.mask
  keeps := h.keeps.trans hlast.keeps
  distinct := hlast.distinct ∘ h.distinct

theorem grows_put {location : Location} {node : Node} (h : m.root.at? location = none)
    (hnode : node.entries = []) : m.Grows (m.put location (some node)) where
  cwd := rfl
  mask := rfl
  keeps := Node.keeps_put h (some node)
  distinct := fun hdistinct => hdistinct.put (fun _ hnew =>
    Option.some.inj hnew ▸ Node.namesDistinct_of_entries_eq_nil hnode) location

theorem resolve_of_ways (h : m.resolve path = .ok place) (hways : m.root.KeepsWays after.root)
    (hcwd : after.cwd = m.cwd) (hnew : m.root.at? place.location = none →
      ∀ node, after.root.at? place.location = some node → node.link? = none) :
    after.resolve path = .ok ⟨place.location, after.root.at? place.location⟩ := by
  obtain ⟨hpath, hwalks⟩ := Node.resolve_eq_ok_iff.1 h
  refine Node.resolve_eq_ok_iff.2 ⟨hpath, ?_⟩
  rw [hcwd]
  exact hwalks.keeps hways hnew

theorem resolve_of_grows (h : m.resolve path = .ok place) (hgrows : m.Grows after)
    (hnew : m.root.at? place.location = none →
      ∀ node, after.root.at? place.location = some node → node.link? = none) :
    after.resolve path = .ok ⟨place.location, after.root.at? place.location⟩ :=
  resolve_of_ways h hgrows.keeps.ways hgrows.cwd hnew

theorem resolve_dir_of_ways {location : Location} {mode : Nat} {entries : List (Bytes × Node)}
    (h : m.resolve path = .ok ⟨location, some (.dir mode entries)⟩)
    (hways : m.root.KeepsWays after.root) (hcwd : after.cwd = m.cwd) :
    ∃ others, after.resolve path = .ok ⟨location, some (.dir mode others)⟩ := by
  have hnode := Node.node_of_resolve h
  obtain ⟨kept, hkept, houtline⟩ := hways _ _ hnode.symm
  obtain ⟨others, rfl⟩ := Node.exists_dir_of_outline houtline
  refine ⟨others, ?_⟩
  rw [← hkept]
  exact resolve_of_ways h hways hcwd fun hnone => nomatch hnode.trans hnone

theorem resolve_dir_of_grows {location : Location} {mode : Nat} {entries : List (Bytes × Node)}
    (h : m.resolve path = .ok ⟨location, some (.dir mode entries)⟩) (hgrows : m.Grows after) :
    ∃ others, after.resolve path = .ok ⟨location, some (.dir mode others)⟩ :=
  resolve_dir_of_ways h hgrows.keeps.ways hgrows.cwd

theorem resolve_file_of_grows {location : Location} {content : Bytes} {mode : Nat}
    (h : m.resolve path = .ok ⟨location, some (.file content mode)⟩) (hgrows : m.Grows after) :
    after.resolve path = .ok ⟨location, some (.file content mode)⟩ := by
  have hnode := Node.node_of_resolve h
  obtain ⟨kept, hkept, hbare⟩ := hgrows.keeps _ _ hnode.symm
  rw [Node.eq_file_of_bare hbare] at hkept
  rw [← hkept]
  exact resolve_of_grows h hgrows fun hnone => nomatch hnode.trans hnone

theorem exists_walks_below {parent name child : Path} {location : Location} {mode mode' : Nat}
    {entries entries' : List (Bytes × Node)}
    (hparent : m.resolve parent = .ok ⟨location, some (.dir mode entries)⟩)
    (hname : Path.IsName name) (hslash : Path.slash ∉ name)
    (hdir : m.root.at? (location ++ [name]) = some (.dir mode' entries'))
    (hchild : child.isAbsolute = false)
    (h : m.resolve ((parent.join name).join child) = .ok place) :
    ∃ links, Node.Walks m.root links (location ++ [name]) (Path.segments child) place := by
  obtain ⟨⟨hempty, -, -⟩, hwalks⟩ := Node.resolve_eq_ok_iff.1 hparent
  obtain ⟨-, hlonger⟩ := Node.resolve_eq_ok_iff.1 h
  obtain ⟨steps, bare, hsteps, hbare, hsegments⟩ :=
    Path.segments_join_join hempty hname.ne_nil hslash hchild
  rw [Path.isAbsolute_join, Path.isAbsolute_join, Path.not_absolute_of_not_mem hslash, hchild,
    Bool.false_or, Bool.false_or, hsegments] at hlonger
  -- the longer path first goes where its parent leads, and then one name and the child are left
  obtain ⟨fewer, honward⟩ := hwalks.onward hsteps hbare
  have hrest : Node.Walks m.root fewer location (name :: Path.segments child) place := by
    rw [← Node.walk_eq_ok_iff, ← honward _ (List.cons_ne_nil _ _)]
    exact Node.walk_of_walks hlonger
  have hlocation : m.root.at? location = some (.dir mode entries) :=
    (Node.node_of_resolve hparent).symm
  have hlookup : entries.lookup name = some (.dir mode' entries') := by
    rw [Node.at?_concat, hlocation] at hdir
    exact hdir
  exact ⟨fewer, hrest.into hlocation hname (by simp [hlookup])⟩

theorem resolve_new_below {parent name child : Path} {location : Location} {mode mode' : Nat}
    {entries entries' : List (Bytes × Node)}
    (hparent : m.resolve parent = .ok ⟨location, some (.dir mode entries)⟩)
    (hname : Path.StartsPlain name) (hslash : Path.slash ∉ name)
    (hdir : m.root.at? (location ++ [name]) = some (.dir mode' entries'))
    (hchild : Path.StartsPlain child)
    (hnew : ∀ key ∈ entries'.map Prod.fst, key.head? ≠ child.head?)
    (h : m.resolve ((parent.join name).join child) = .ok place) :
    Path.slash ∉ child ∧ place = ⟨location ++ [name] ++ [child], none⟩ := by
  obtain ⟨links, hinside⟩ :=
    exists_walks_below hparent hname.isName hslash hdir hchild.not_absolute h
  -- inside, the first segment of the child is no entry, so it must be the last segment too
  obtain ⟨first, others, hfirst, hplain, hhead⟩ := hchild.segments
  have hnone : entries'.lookup first = none :=
    Node.lookup_of_not_mem fun hmem => hnew first hmem hhead
  rw [hfirst] at hinside
  have hthere : m.root.at? (location ++ [name] ++ [first]) = none := by
    rw [Node.at?_concat, hdir]
    exact hnone
  have hlast := hinside.into hdir hplain.isName (by simp [hnone])
  obtain ⟨rfl, hplace⟩ := hlast.eq_nil_of_missing hthere
  obtain ⟨rfl, hnot⟩ := Path.eq_of_splitOn_eq_singleton hfirst
  exact ⟨hnot, hplace⟩

theorem grows_of_throw {α : Type} {fault : FileFault} {result : Except FileFault α}
    (h : FileAction.Does (throw fault) m result after) : m.Grows after := by
  obtain ⟨-, rfl⟩ := FileAction.does_throw_iff.1 h
  exact .refl after

/-- What the segments come to one after the other: nothing is to be done for a segment, or it leads
to a directory, which is made if need be, or it is refused. -/
inductive MakesDirs : Machine → Location → List Bytes → Except FileFault Unit → Machine → Prop
  | done {m here} : MakesDirs m here [] (.ok ()) m
  | stay {m here segment rest result after} (hstay : segment = [] ∨ segment = [Path.dot])
      (h : MakesDirs m here rest result after) : MakesDirs m here (segment :: rest) result after
  | up {m here rest result after} (h : MakesDirs m here.dropLast rest result after) :
      MakesDirs m here ([Path.dot, Path.dot] :: rest) result after
  | down {m here segment rest result after next mode entries}
      (hresolve : m.root.resolve here segment = .ok ⟨next, some (.dir mode entries)⟩)
      (h : MakesDirs m next rest result after) : MakesDirs m here (segment :: rest) result after
  | make {m here segment rest result after next}
      (hresolve : m.root.resolve here segment = .ok ⟨next, none⟩)
      (hchange : m.mayChange next = true)
      (h : MakesDirs (m.put next (some (.dir (m.granted 0o777) []))) next rest result after) :
      MakesDirs m here (segment :: rest) result after
  | refuse {m here segment rest fault} : MakesDirs m here (segment :: rest) (.error fault) m

theorem makesDirs_of_throw {here : Location} {segment : Bytes} {rest : List Bytes}
    {fault : FileFault} {result : Except FileFault Unit}
    (h : FileAction.Does (throw fault) m result after) :
    MakesDirs m here (segment :: rest) result after := by
  obtain ⟨rfl, rfl⟩ := FileAction.does_throw_iff.1 h
  exact .refuse

theorem makesDirs_of_does {here : Location} {segments : List Bytes}
    {result : Except FileFault Unit}
    (h : FileAction.Does (makeDirsFrom here segments) m result after) :
    MakesDirs m here segments result after := by
  induction segments generalizing here m with
  | nil =>
    obtain ⟨rfl, rfl⟩ := FileAction.does_pure_iff.1 h
    exact .done
  | cons segment rest ih =>
    rw [makeDirsFrom] at h
    split at h
    · next hstay => exact .stay hstay (ih h)
    · split at h
      · next hup => exact hup ▸ .up (ih h)
      · split at h
        · exact makesDirs_of_throw h
        · rw [FileAction.does_get_bind_iff] at h
          split at h
          · exact makesDirs_of_throw h
          · next hresolve =>
            split at h
            · exact makesDirs_of_throw h
            · split at h
              · exact makesDirs_of_throw h
              · next hchange =>
                exact .make hresolve (by simpa using hchange)
                  (ih (FileAction.does_set_bind_iff.1 h))
          · next hresolve => exact .down hresolve (ih h)
          · exact makesDirs_of_throw h

theorem MakesDirs.grows {here : Location} {segments : List Bytes} {result : Except FileFault Unit}
    (h : MakesDirs m here segments result after) : m.Grows after := by
  induction h with
  | done => exact .refl _
  | stay _ _ ih => exact ih
  | up _ ih => exact ih
  | down _ _ ih => exact ih
  | make hresolve _ _ ih => exact (grows_put (Node.node_of_resolve hresolve).symm rfl).trans ih
  | refuse => exact .refl _

theorem grows_of_makeDirs {result : Except FileFault Unit}
    (h : FileAction.Does (makeDirs path) m result after) : m.Grows after := by
  rw [makeDirs, FileAction.does_get_bind_iff] at h
  split at h
  · exact grows_of_throw h
  · split at h
    · exact grows_of_throw h
    · exact (makesDirs_of_does h).grows

inductive Opens (m : Machine) (path : Path) : Opened → Prop
  | existing {location content mode}
      (h : m.resolve path = .ok ⟨location, some (.file content mode)⟩)
      (hwrite : Right.write.isIn mode = true) : Opens m path (.file location content mode)
  | new {location} (h : m.resolve path = .ok ⟨location, none⟩)
      (hchange : m.mayChange location = true) :
      Opens m path (.file location [] (m.granted 0o666))
  | special {location special}
      (h : m.resolve path = .ok ⟨location, some (.special special)⟩) :
      Opens m path (.special special)

theorem opens_of_openForWriting {opened : Opened} (h : m.openForWriting path = .ok opened) :
    m.Opens path opened := by
  obtain ⟨place, hplace, h⟩ := Outcome.bind_eq_ok.1 h
  by_cases hslashed : (path.getLast? == some Path.slash) = true
  · rw [if_pos hslashed] at h
    exact nomatch h
  · rw [if_neg (by simp [hslashed])] at hplace
    rw [if_neg hslashed] at h
    obtain ⟨location, node⟩ := place
    simp only at h
    split at h
    · split at h
      · next hwrite => exact Except.ok.inj h ▸ .existing hplace hwrite
      · exact nomatch h
    · exact nomatch h
    · exact nomatch h
    · exact Except.ok.inj h ▸ .special hplace
    · exact nomatch h
    · split at h
      · next hchange => exact Except.ok.inj h ▸ .new hplace hchange
      · exact nomatch h

theorem openForWriting_new {opened : Opened} (h : m.openForWriting path = .ok opened)
    (hnew : ∀ place, m.resolve path = .ok place → place.node = none) :
    ∃ place, m.resolve path = .ok place ∧ opened = .file place.location [] (m.granted 0o666) := by
  cases opens_of_openForWriting h with
  | existing hplace => exact nomatch hnew _ hplace
  | new hplace => exact ⟨_, hplace, rfl⟩
  | special hplace => exact nomatch hnew _ hplace

theorem writeFile_new {content : Bytes} {result : Except FileFault Unit}
    (h : FileAction.Does (writeFile path content) m result after)
    (hnew : ∀ place, m.resolve path = .ok place → place.node = none) :
    (∃ fault, result = .error fault ∧ after = m) ∨
      result = .ok () ∧ ∃ place, m.resolve path = .ok place ∧
        after = m.put place.location (some (.file content (m.granted 0o666))) := by
  rw [writeFile, rewrite, FileAction.does_get_bind_iff] at h
  split at h
  · next location old mode hopened =>
    obtain ⟨place, hplace, heq⟩ := openForWriting_new hopened hnew
    obtain ⟨rfl, rfl, rfl⟩ := Opened.file.inj heq
    obtain ⟨hresult, hafter⟩ := FileAction.does_set_iff.1 h
    exact Or.inr ⟨hresult, place, hplace, hafter⟩
  · next special hopened =>
    obtain ⟨_, -, heq⟩ := openForWriting_new hopened hnew
    exact nomatch heq
  · exact Or.inl ⟨_, FileAction.does_throw_iff.1 h⟩

end Machine
end MergeTrial
