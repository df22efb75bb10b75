import MergeTrial.Proofs.FileTree.Tree

/-! Where paths lead: to the same place in a tree that keeps all that was there, and, from a path to
a directory, on to what the directory holds. -/

namespace MergeTrial

namespace Path
variable {parent child : Path}

theorem splitOn_ne_nil (sep : UInt8) (bytes : Bytes) : splitOn sep bytes ≠ [] := by
  cases bytes with
  | nil => exact List.cons_ne_nil _ _
  | cons b rest =>
    rw [splitOn]
    split
    · exact List.cons_ne_nil _ _
    · split <;> exact List.cons_ne_nil _ _

theorem splitOn_of_not_mem {sep : UInt8} {bytes : Bytes} (h : sep ∉ bytes) :
    splitOn sep bytes = [bytes] := by
  induction bytes with
  | nil => rfl
  | cons b rest ih =>
    rw [List.mem_cons, not_or] at h
    rw [splitOn, if_neg (Ne.symm h.1), ih h.2]

theorem splitOn_cons_of_ne {sep b : UInt8} (h : b ≠ sep) (bytes : Bytes) : ∃ first rest,
    splitOn sep bytes = first :: rest ∧ splitOn sep (b :: bytes) = (b :: first) :: rest := by
  obtain ⟨first, rest, hsplit⟩ := List.exists_cons_of_ne_nil (splitOn_ne_nil sep bytes)
  exact ⟨first, rest, hsplit, by rw [splitOn, if_neg h, hsplit]⟩

theorem splitOn_append_cons (sep : UInt8) (before after : Bytes) :
    splitOn sep (before ++ sep :: after) = splitOn sep before ++ splitOn sep after := by
  induction before with
  | nil => simp [splitOn]
  | cons b before ih =>
    by_cases hb : b = sep
    · subst hb
      simp [splitOn, ih]
    · obtain ⟨first, rest, hbefore, hcons⟩ := splitOn_cons_of_ne hb before
      rw [hcons, List.cons_append, splitOn, if_neg hb, ih, hbefore]
      rfl

theorem isAbsolute_join (parent child : Path) :
    (parent.join child).isAbsolute = (child.isAbsolute || parent.isAbsolute) := by
  unfold join
  cases hchild : child.isAbsolute with
  | true => simp [hchild]
  | false =>
    cases parent with
    | nil => simpa [isAbsolute] using hchild
    | cons b rest =>
      simp only [List.isEmpty_cons, Bool.or_self, Bool.false_eq_true, if_false, Bool.false_or]
      split <;> rfl

theorem segments_join (hparent : parent ≠ []) (hchild : child.isAbsolute = false) :
    ∃ steps bare, segments parent = steps ++ bare ∧ (bare = [] ∨ bare = [[]]) ∧
      segments (parent.join child) = steps ++ segments child := by
  have hself : ¬(child.isAbsolute || parent.isEmpty) = true := by
    simp [hchild, List.isEmpty_iff, hparent]
  rw [join, if_neg hself]
  split
  · next hslash =>
    have hlast : parent = parent.dropLast ++ [slash] := by
      obtain ⟨before, h⟩ := List.getLast?_eq_some_iff.1 (eq_of_beq hslash)
      rw [h, List.dropLast_concat]
    refine ⟨segments parent.dropLast, [[]], ?_, Or.inr rfl, ?_⟩
    · exact (congrArg segments hlast).trans (splitOn_append_cons slash parent.dropLast [])
    · have hjoined : parent ++ child = parent.dropLast ++ slash :: child :=
        (congrArg (· ++ child) hlast).trans (List.append_assoc ..)
      exact (congrArg segments hjoined).trans (splitOn_append_cons slash parent.dropLast child)
  · exact ⟨segments parent, [], (List.append_nil _).symm, Or.inl rfl,
      splitOn_append_cons slash parent child⟩

def StartsPlain (bytes : Bytes) : Prop :=
  ∃ first rest, bytes = first :: rest ∧ first ≠ slash ∧ first ≠ dot

theorem StartsPlain.not_absolute {bytes : Path} (h : StartsPlain bytes) :
    bytes.isAbsolute = false := by
  obtain ⟨first, rest, rfl, hslash, -⟩ := h
  simp [isAbsolute, hslash]

theorem StartsPlain.segments {bytes : Path} (h : StartsPlain bytes) : ∃ segment rest,
    Path.segments bytes = segment :: rest ∧ StartsPlain segment ∧
      segment.head? = bytes.head? := by
  obtain ⟨first, bytes, rfl, hslash, hdot⟩ := h
  obtain ⟨segment, rest, -, hsegments⟩ := splitOn_cons_of_ne hslash bytes
  exact ⟨first :: segment, rest, hsegments, ⟨first, segment, rfl, hslash, hdot⟩, rfl⟩

structure IsName (bytes : Bytes) : Prop where
  ne_nil : bytes ≠ []
  ne_dot : bytes ≠ [dot]
  ne_up : bytes ≠ [dot, dot]

theorem isName_of_length {bytes : Bytes} (h : 3 ≤ bytes.length) : IsName bytes := by
  constructor <;> rintro rfl <;> exact absurd h (by decide)

theorem StartsPlain.isName {bytes : Path} (h : StartsPlain bytes) : IsName bytes := by
  obtain ⟨first, rest, rfl, -, hdot⟩ := h
  constructor
  case ne_nil => exact List.cons_ne_nil first rest
  case ne_dot => exact fun heq => hdot (List.cons.inj heq).1
  case ne_up => exact fun heq => hdot (List.cons.inj heq).1

theorem slash_mem_of_isAbsolute {path : Path} (h : path.isAbsolute = true) : slash ∈ path :=
  List.mem_of_mem_head? (eq_of_beq h)

theorem not_absolute_of_not_mem {path : Path} (h : slash ∉ path) : path.isAbsolute = false :=
  Bool.eq_false_iff.2 (mt slash_mem_of_isAbsolute h)

theorem segments_join_join {name : Path} (hparent : parent ≠ []) (hname : name ≠ [])
    (hslash : slash ∉ name) (hchild : child.isAbsolute = false) :
    ∃ steps bare, Path.segments parent = steps ++ bare ∧ (bare = [] ∨ bare = [[]]) ∧
      Path.segments ((parent.join name).join child) = steps ++ name :: Path.segments child := by
  obtain ⟨steps, bare, hsteps, hbare, hjoined⟩ :=
    segments_join hparent (not_absolute_of_not_mem hslash)
  have hsingle : Path.segments name = [name] := splitOn_of_not_mem hslash
  rw [hsingle] at hjoined
  refine ⟨steps, bare, hsteps, hbare, ?_⟩
  have hjoin : parent.join name ≠ [] := by
    intro hnil
    rw [hnil] at hjoined
    have hempty : ([] : List Bytes) ++ [[]] = steps ++ [name] := hjoined
    exact hname (List.singleton_inj.1 (List.append_inj_right' hempty rfl)).symm
  obtain ⟨steps', bare', hsteps', hbare', hboth⟩ := segments_join hjoin hchild
  have hsame : steps' ++ bare' = steps ++ [name] := hsteps'.symm.trans hjoined
  rcases hbare' with rfl | rfl
  · rw [hboth, ← List.append_nil steps', hsame, List.append_assoc, List.singleton_append]
  · exact absurd (List.singleton_inj.1 (List.append_inj_right' hsame rfl)).symm hname

theorem eq_of_splitOn_eq_singleton {sep : UInt8} {bytes only : Bytes}
    (h : splitOn sep bytes = [only]) : only = bytes ∧ sep ∉ bytes := by
  induction bytes generalizing only with
  | nil =>
    obtain rfl := List.singleton_inj.1 h
    exact ⟨rfl, List.not_mem_nil⟩
  | cons b bytes ih =>
    by_cases hb : b = sep
    · rw [splitOn, if_pos hb] at h
      exact absurd (List.cons.inj h).2 (splitOn_ne_nil sep bytes)
    · obtain ⟨first, rest, hbytes, hcons⟩ := splitOn_cons_of_ne hb bytes
      obtain ⟨rfl, rfl⟩ := List.cons.inj (hcons.symm.trans h)
      obtain ⟨rfl, hnot⟩ := ih hbytes
      exact ⟨rfl, fun hmem => (List.mem_cons.1 hmem).elim (Ne.symm hb) hnot⟩

end Path

namespace Node

structure Enters (mode : Nat) (segment : Bytes) : Prop where
  not_stay : ¬(segment = [] ∨ segment = [Path.dot])
  not_up : segment ≠ [Path.dot, Path.dot]
  short : segment.length ≤ maxName
  searched : Right.execute.isIn mode = true

def EndsInLink (entries : List (Bytes × Node)) (segment : Bytes) (rest : List Bytes) : Prop :=
  rest = [] ∧ ∃ target, entries.lookup segment = some (.special (.link target))

/-- The ways to follow segments to a place, through so many links at most. -/
inductive Walks (root : Node) : Nat → Location → List Bytes → Place → Prop
  | done {links here} : Walks root links here [] ⟨here, root.at? here⟩
  | link {links here target segment rest place}
      (h : root.at? here = some (.special (.link target)))
      (hwalks : Walks root links (if Path.isAbsolute target then [] else here.dropLast)
        (Path.segments target ++ segment :: rest) place) :
      Walks root (links + 1) here (segment :: rest) place
  | stay {links here mode entries segment rest place} (h : root.at? here = some (.dir mode entries))
      (hstay : segment = [] ∨ segment = [Path.dot]) (hwalks : Walks root links here rest place) :
      Walks root links here (segment :: rest) place
  | up {links here mode entries rest place} (h : root.at? here = some (.dir mode entries))
      (hwalks : Walks root links here.dropLast rest place) :
      Walks root links here ([Path.dot, Path.dot] :: rest) place
  | down {links here mode entries segment rest place} (h : root.at? here = some (.dir mode entries))
      (henters : Enters mode segment) (hdown : ¬EndsInLink entries segment rest)
      (hwalks : Walks root links (here ++ [segment]) rest place) :
      Walks root links here (segment :: rest) place
  | ends {links here mode entries segment target place}
      (h : root.at? here = some (.dir mode entries)) (henters : Enters mode segment)
      (hlink : entries.lookup segment = some (.special (.link target)))
      (hwalks : Walks root links (if Path.isAbsolute target then [] else here)
        (Path.segments target) place) : Walks root (links + 1) here [segment] place

variable {root later : Node} {here location : Location} {segment : Bytes}
  {segments rest : List Bytes} {jump : Location → List Bytes → Except FileFault Place}
  {place : Place} {mode links : Nat} {entries : List (Bytes × Node)} {target : Path}

def link? : Node → Option Path
  | .special (.link target) => some target
  | _ => none

theorem eq_special_of_outline {kept : Node} {special : Special}
    (h : kept.outline = (Node.special special).outline) : kept = .special special := by
  cases kept with
  | special => exact h
  | _ => exact nomatch h

theorem eq_file_of_bare {kept : Node} {content : Bytes}
    (h : kept.bare = (file content mode).bare) : kept = .file content mode := by
  cases kept with
  | file => exact h
  | _ => exact nomatch h

theorem map_bare_eq_file_iff {found : Option Node} {content : Bytes} :
    found.map bare = some (.file content mode) ↔ found = some (.file content mode) := by
  constructor
  · intro h
    obtain ⟨node, rfl, hbare⟩ := Option.map_eq_some_iff.1 h
    exact congrArg some (eq_file_of_bare hbare)
  · rintro rfl
    rfl

theorem exists_dir_of_bare {kept : Node} (h : kept.bare = dir mode []) :
    ∃ others, kept = .dir mode others := by
  cases kept with
  | dir other others =>
    obtain rfl : other = mode := (Node.dir.inj h).1
    exact ⟨others, rfl⟩
  | _ => exact nomatch h

theorem exists_dir_of_outline {kept : Node} (h : kept.outline = (dir mode entries).outline) :
    ∃ others, kept = .dir mode others := by
  cases kept with
  | dir other others =>
    obtain rfl : other = mode := (Node.dir.inj h).1
    exact ⟨others, rfl⟩
  | _ => exact nomatch h

section Steps

theorem walkUntilLink_link (h : root.at? here = some (.special (.link target))) :
    walkUntilLink root true jump here (segment :: rest) =
      jump (if Path.isAbsolute target then [] else here.dropLast)
        (Path.segments target ++ segment :: rest) := by
  rw [walkUntilLink, h]

variable (h : root.at? here = some (.dir mode entries))
include h

theorem walkUntilLink_stay (hstay : segment = [] ∨ segment = [Path.dot]) :
    walkUntilLink root true jump here (segment :: rest) =
      walkUntilLink root true jump here rest := by
  rw [walkUntilLink, h]
  exact if_pos hstay

theorem walkUntilLink_up : walkUntilLink root true jump here ([Path.dot, Path.dot] :: rest) =
    walkUntilLink root true jump here.dropLast rest := by
  rw [walkUntilLink, h]
  rfl

theorem walkUntilLink_down (henters : Enters mode segment)
    (hdown : ¬EndsInLink entries segment rest) :
    walkUntilLink root true jump here (segment :: rest) =
      walkUntilLink root true jump (here ++ [segment]) rest := by
  rw [walkUntilLink, h]
  simp only [henters.not_stay, henters.not_up, henters.searched, Nat.not_lt.2 henters.short,
    if_false, Bool.not_true, Bool.false_eq_true]
  split
  · next target hlookup => exact absurd ⟨rfl, target, hlookup⟩ hdown
  · rfl

theorem walkUntilLink_end (henters : Enters mode segment)
    (hlink : entries.lookup segment = some (.special (.link target))) :
    walkUntilLink root true jump here [segment] =
      jump (if Path.isAbsolute target then [] else here) (Path.segments target) := by
  rw [walkUntilLink, h]
  simp only [henters.not_stay, henters.not_up, henters.searched, Nat.not_lt.2 henters.short,
    if_false, Bool.not_true, Bool.false_eq_true, hlink, if_true]

end Steps

theorem walk_of_walks (h : Walks root links here segments place) :
    walk root true (links + 1) here segments = .ok place := by
  induction h with
  | done => rfl
  | link h _ ih => exact (walkUntilLink_link h).trans ih
  | stay h hstay _ ih => exact (walkUntilLink_stay h hstay).trans ih
  | up h _ ih => exact (walkUntilLink_up h).trans ih
  | down h henters hdown _ ih => exact (walkUntilLink_down h henters hdown).trans ih
  | ends h henters hlink _ ih => exact (walkUntilLink_end h henters hlink).trans ih

theorem walks_of_walkUntilLink (hjump : ∀ here segments, jump here segments = .ok place →
      ∃ fewer, links = fewer + 1 ∧ Walks root fewer here segments place)
    (h : walkUntilLink root true jump here segments = .ok place) :
    Walks root links here segments place := by
  induction segments generalizing here with
  | nil =>
    obtain rfl := Except.ok.inj h
    exact .done
  | cons segment rest ih =>
    rw [walkUntilLink] at h
    split at h
    · exact nomatch h
    · next target hlink =>
      obtain ⟨fewer, rfl, hwalks⟩ := hjump _ _ h
      exact .link hlink hwalks
    · next mode entries hdir =>
      split at h
      · next hstay => exact .stay hdir hstay (ih h)
      · next hstay =>
        split at h
        · next hup =>
          subst hup
          exact .up hdir (ih h)
        · next hup =>
          split at h
          · exact nomatch h
          · next hshort =>
            split at h
            · exact nomatch h
            · next hsearched =>
              have henters : Enters mode segment :=
                ⟨hstay, hup, Nat.not_lt.1 hshort, by simpa using hsearched⟩
              split at h
              · next target hlink =>
                obtain ⟨fewer, rfl, hwalks⟩ := hjump _ _ h
                exact .ends hdir henters hlink hwalks
              · next hdown =>
                refine .down hdir henters ?_ (ih h)
                rintro ⟨rfl, target, hlink⟩
                exact hdown target hlink rfl
    · exact nomatch h

theorem walk_eq_ok_iff : walk root true (links + 1) here segments = .ok place ↔
    Walks root links here segments place := by
  refine ⟨fun h => ?_, walk_of_walks⟩
  -- on the links that are left: each time one is gone through, the segments are other ones
  induction links generalizing here segments with
  | zero =>
    have hnone : ∀ here segments, walk root true 0 here segments = .ok place →
        ∃ fewer, 0 = fewer + 1 ∧ Walks root fewer here segments place := fun _ _ h => nomatch h
    exact walks_of_walkUntilLink hnone h
  | succ links ih => exact walks_of_walkUntilLink (fun _ _ h => ⟨links, rfl, ih h⟩) h

theorem Walks.keeps (h : Walks root links here segments place) (hkeeps : root.KeepsWays later)
    (hnew : root.at? place.location = none →
      ∀ node, later.at? place.location = some node → node.link? = none) :
    Walks later links here segments ⟨place.location, later.at? place.location⟩ := by
  have hdir : ∀ {here mode entries}, root.at? here = some (.dir mode entries) →
      ∃ others, later.at? here = some (.dir mode others) := by
    intro here mode entries h
    obtain ⟨kept, hkept, houtline⟩ := hkeeps _ _ h
    obtain ⟨others, rfl⟩ := exists_dir_of_outline houtline
    exact ⟨others, hkept⟩
  have hlinked : ∀ {here target}, root.at? here = some (.special (.link target)) →
      later.at? here = some (.special (.link target)) := by
    intro here target h
    obtain ⟨kept, hkept, houtline⟩ := hkeeps _ _ h
    exact eq_special_of_outline houtline ▸ hkept
  have hlookup : ∀ {tree : Node} {here mode entries} (segment : Bytes),
      tree.at? here = some (.dir mode entries) →
      tree.at? (here ++ [segment]) = entries.lookup segment := by
    intro tree here mode entries segment h
    rw [at?_concat, h]
    rfl
  induction h with
  | done => exact .done
  | link h _ ih => exact .link (hlinked h) (ih hnew)
  | stay h hstay _ ih =>
    obtain ⟨others, hothers⟩ := hdir h
    exact .stay hothers hstay (ih hnew)
  | up h _ ih =>
    obtain ⟨others, hothers⟩ := hdir h
    exact .up hothers (ih hnew)
  | ends h henters hlink _ ih =>
    obtain ⟨others, hothers⟩ := hdir h
    refine .ends hothers henters ?_ (ih hnew)
    rw [← hlookup _ hothers]
    exact hlinked ((hlookup _ h).trans hlink)
  | down h henters hdown hwalks ih =>
    obtain ⟨others, hothers⟩ := hdir h
    refine .down hothers henters ?_ (ih hnew)
    -- if the path ends in a link now, that is new, since no node that was kept has become a link
    rintro ⟨rfl, target, hlink⟩
    cases hwalks
    have hnow := (hlookup _ hothers).trans hlink
    cases hold : root.at? (_ ++ [_]) with
    | none => exact nomatch hnew hold _ hnow
    | some node =>
      obtain ⟨kept, hkept, houtline⟩ := hkeeps _ node hold
      obtain rfl := Option.some.inj (hkept.symm.trans hnow)
      have hnode := eq_special_of_outline houtline.symm
      exact hdown ⟨rfl, target, (hlookup _ h).symm.trans (hnode ▸ hold)⟩

theorem node_of_walks (h : Walks root links here segments place) :
    place.node = root.at? place.location := by
  have hsame := h.keeps (Keeps.refl root).ways fun hnone _ hnode => nomatch hnone.symm.trans hnode
  have hplace := (walk_of_walks h).symm.trans (walk_of_walks hsame)
  exact congrArg Place.node (Except.ok.inj hplace)

theorem Walks.eq_nil_of_missing (h : Walks root links here segments place)
    (hmissing : root.at? here = none) : segments = [] ∧ place = ⟨here, none⟩ := by
  cases h with
  | done => exact ⟨rfl, by rw [hmissing]⟩
  | link h => exact nomatch hmissing.symm.trans h
  | stay h => exact nomatch hmissing.symm.trans h
  | up h => exact nomatch hmissing.symm.trans h
  | down h => exact nomatch hmissing.symm.trans h
  | ends h => exact nomatch hmissing.symm.trans h

theorem Walks.into (h : Walks root links here (segment :: rest) place)
    (hdir : root.at? here = some (.dir mode entries)) (hname : Path.IsName segment)
    (hlink : ∀ target, entries.lookup segment ≠ some (.special (.link target))) :
    Walks root links (here ++ [segment]) rest place := by
  cases h with
  | link h => exact nomatch hdir.symm.trans h
  | stay h hstay => exact absurd hstay (not_or.2 ⟨hname.ne_nil, hname.ne_dot⟩)
  | up h => exact absurd rfl hname.ne_up
  | down h _ _ hwalks => exact hwalks
  | ends h _ htarget =>
    obtain ⟨-, rfl⟩ := Node.dir.inj (Option.some.inj (hdir.symm.trans h))
    exact absurd htarget (hlink _)

theorem cons_eq_append_bare {steps bare : List Bytes} (h : segment :: rest = steps ++ bare)
    (hbare : bare = [] ∨ bare = [[]]) : (steps = [] ∧ segment = [] ∧ rest = []) ∨
      ∃ others, steps = segment :: others ∧ rest = others ++ bare := by
  cases steps with
  | nil =>
    rcases hbare with rfl | rfl
    · exact nomatch h
    · exact Or.inl ⟨rfl, List.cons.inj h⟩
  | cons step others =>
    obtain ⟨rfl, hrest⟩ := List.cons.inj h
    exact Or.inr ⟨others, rfl, hrest⟩

theorem Walks.onward (h : Walks root links here segments ⟨location, some (.dir mode entries)⟩)
    {steps bare : List Bytes} (hsegments : segments = steps ++ bare)
    (hbare : bare = [] ∨ bare = [[]]) : ∃ fewer, ∀ more ≠ [],
      walk root true (links + 1) here (steps ++ more) =
        walk root true (fewer + 1) location more := by
  generalize hplace : (⟨location, some (.dir mode entries)⟩ : Place) = place at h
  induction h generalizing steps bare with
  | @done links here =>
    obtain ⟨rfl, -⟩ := List.append_eq_nil_iff.1 hsegments.symm
    obtain rfl : location = here := congrArg Place.location hplace
    exact ⟨links, fun _ _ => rfl⟩
  | @link links here target segment rest place h _ ih =>
    rcases cons_eq_append_bare hsegments hbare with ⟨rfl, rfl, rfl⟩ | ⟨others, rfl, rfl⟩
    · obtain ⟨fewer, honward⟩ := ih rfl (Or.inr rfl) hplace
      refine ⟨fewer, fun more hmore => ?_⟩
      obtain ⟨first, more, rfl⟩ := List.exists_cons_of_ne_nil hmore
      exact (walkUntilLink_link h).trans (honward _ hmore)
    · obtain ⟨fewer, honward⟩ := ih (List.append_assoc _ (segment :: others) bare).symm hbare hplace
      refine ⟨fewer, fun more hmore => ?_⟩
      rw [← honward more hmore, List.append_assoc]
      exact walkUntilLink_link h
  | stay h hstay hwalks ih =>
    rcases cons_eq_append_bare hsegments hbare with ⟨rfl, rfl, rfl⟩ | ⟨others, rfl, rfl⟩
    · exact ih rfl (Or.inl rfl) hplace
    · obtain ⟨fewer, honward⟩ := ih rfl hbare hplace
      exact ⟨fewer, fun more hmore => (walkUntilLink_stay h hstay).trans (honward more hmore)⟩
  | up h _ ih =>
    rcases cons_eq_append_bare hsegments hbare with ⟨-, hnil, -⟩ | ⟨others, rfl, rfl⟩
    · exact nomatch hnil
    · obtain ⟨fewer, honward⟩ := ih rfl hbare hplace
      exact ⟨fewer, fun more hmore => (walkUntilLink_up h).trans (honward more hmore)⟩
  | @ends links here mode entries segment target place h henters hlink _ ih =>
    rcases cons_eq_append_bare hsegments hbare with ⟨-, rfl, -⟩ | ⟨others, rfl, hrest⟩
    · exact absurd (Or.inl rfl) henters.not_stay
    · obtain ⟨rfl, -⟩ := List.append_eq_nil_iff.1 hrest.symm
      obtain ⟨fewer, honward⟩ := ih (List.append_nil _).symm (Or.inl rfl) hplace
      -- the link does not end the longer path, so it is gone through one step later
      have hthere : root.at? (here ++ [segment]) = some (.special (.link target)) := by
        rw [at?_concat, h]
        exact hlink
      refine ⟨fewer, fun more hmore => ?_⟩
      have hdown : ¬EndsInLink entries segment more := fun hends => hmore hends.1
      refine (walkUntilLink_down h henters hdown).trans ?_
      obtain ⟨first, more, rfl⟩ := List.exists_cons_of_ne_nil hmore
      rw [walkUntilLink_link hthere, List.dropLast_concat]
      exact honward _ hmore
  | down h henters _ _ ih =>
    rcases cons_eq_append_bare hsegments hbare with ⟨-, rfl, -⟩ | ⟨others, rfl, rfl⟩
    · exact absurd (Or.inl rfl) henters.not_stay
    · obtain ⟨fewer, honward⟩ := ih rfl hbare hplace
      refine ⟨fewer, fun more hmore => ?_⟩
      refine (walkUntilLink_down h henters fun hends => ?_).trans (honward more hmore)
      exact hmore (List.append_eq_nil_iff.1 hends.1).2

section Resolve
variable {cwd : Location} {path : Path}

theorem resolve_eq_ok_iff : root.resolve cwd path = .ok place ↔
    (path ≠ [] ∧ path.contains 0 = false ∧ path.length ≤ maxPath) ∧
      Walks root maxLinks (if Path.isAbsolute path then [] else cwd) (Path.segments path)
        place := by
  rw [resolve, resolveWith, ← walk_eq_ok_iff]
  by_cases hempty : path = []
  · simp [hempty]
  · by_cases hnul : path.contains 0 = true
    · rw [if_neg hempty, if_pos hnul]
      exact ⟨nofun, fun h => nomatch hnul.symm.trans h.1.2.1⟩
    · by_cases hlong : maxPath < path.length
      · rw [if_neg hempty, if_neg hnul, if_pos hlong]
        exact ⟨nofun, fun h => absurd hlong (Nat.not_lt.2 h.1.2.2)⟩
      · rw [if_neg hempty, if_neg hnul, if_neg hlong]
        exact ⟨fun h => ⟨⟨hempty, Bool.eq_false_iff.2 hnul, Nat.not_lt.1 hlong⟩, h⟩, And.right⟩

theorem node_of_resolve (h : root.resolve cwd path = .ok place) :
    place.node = root.at? place.location :=
  node_of_walks (resolve_eq_ok_iff.1 h).2

end Resolve

end Node
end MergeTrial
