import MergeTrial.Proofs.FileTree.Saving

/-! In a directory that a path leads to: making a directory under a name, which is an empty one if
the name is new, and writing a file in that one. What else the directory holds stays. -/

namespace MergeTrial.Machine
open Node
variable {m after : Machine} {parent name child : Path} {here : Location} {mode mode' : Nat}
  {entries entries' : List (Bytes × Node)} {place : Place} {content : Bytes}

theorem exists_of_makeDirsFrom_name (hname : Path.IsName name)
    (h : FileAction.Does (makeDirsFrom here [name]) m (.ok ()) after) : ∃ next node,
      m.root.resolve here name = .ok ⟨next, node⟩ ∧
        (node = none ∧ after = m.put next (some (.dir (m.granted 0o777) [])) ∨
          (∃ mode entries, node = some (.dir mode entries)) ∧ after = m) := by
  cases makesDirs_of_does h with
  | stay hstay => exact absurd hstay (not_or.2 ⟨hname.ne_nil, hname.ne_dot⟩)
  | up => exact absurd rfl hname.ne_up
  | down hresolve hdone =>
    cases hdone
    exact ⟨_, _, hresolve, Or.inr ⟨⟨_, _, rfl⟩, rfl⟩⟩
  | make hresolve _ hdone =>
    cases hdone
    exact ⟨_, none, hresolve, Or.inl ⟨rfl, rfl⟩⟩

section Parent
variable (hparent : m.resolve parent = .ok ⟨here, some (.dir mode entries)⟩)
include hparent

theorem does_makeDirsFrom_steps (hcwd : m.HasCwd) {steps bare more : List Bytes}
    (hsteps : Path.segments parent = steps ++ bare) (hbare : bare = [] ∨ bare = [[]])
    {result : Except FileFault Unit} : FileAction.Does
      (makeDirsFrom (if parent.isAbsolute then [] else m.cwd) (steps ++ more)) m result after ↔
        FileAction.Does (makeDirsFrom here more) m result after := by
  obtain ⟨⟨-, hnul, -⟩, hwalks⟩ := resolve_eq_ok_iff.1 hparent
  have hhere : m.root.at? here = some (.dir mode entries) := (node_of_resolve hparent).symm
  obtain ⟨links, honward⟩ := hwalks.onward hsteps hbare
  have hstays : Walks m.root maxLinks (if parent.isAbsolute then [] else m.cwd) (steps ++ [[]])
      ⟨here, m.root.at? here⟩ := by
    rw [← walk_eq_ok_iff, honward _ (List.cons_ne_nil _ _)]
    exact walk_of_walks (.stay hhere (Or.inl rfl) .done)
  have hplain : ∀ segment ∈ steps, IsSegment segment := by
    intro segment hmem
    have hparts : segment ∈ Path.segments parent := hsteps ▸ List.mem_append_left _ hmem
    obtain ⟨hsegment, hbytes⟩ := Path.not_mem_of_mem_splitOn hparts
    exact ⟨hsegment, fun hzero => by simp [hbytes 0 hzero] at hnul⟩
  obtain ⟨_, _, hstart⟩ := hcwd.start parent.isAbsolute
  obtain ⟨next, _, _, _, -, hnext, hlast, hmake⟩ :=
    makeDirsFrom_append hstays (List.cons_ne_nil _ _) (Nat.le_refl _) hstart hplain
  have hsame : here = next := by
    cases hlast with
    | link h => simp [hnext] at h
    | stay _ _ hdone => exact congrArg Place.location hdone.eq_of_nil
    | down _ henters => exact absurd (Or.inl rfl) henters.not_stay
    | ends _ henters => exact absurd (Or.inl rfl) henters.not_stay
  rw [hsame]
  exact hmake more result after

variable (hslash : Path.slash ∉ name)
include hslash

theorem does_makeDirsFrom_name (hcwd : m.HasCwd)
    (h : FileAction.Does (makeDirs (parent.join name)) m (.ok ()) after) :
    FileAction.Does (makeDirsFrom here [name]) m (.ok ()) after := by
  obtain ⟨⟨hempty, -, -⟩, -⟩ := resolve_eq_ok_iff.1 hparent
  obtain ⟨steps, bare, hsteps, hbare, hsegments⟩ :=
    Path.segments_join hempty (Path.not_absolute_of_not_mem hslash)
  rw [Path.segments, Path.segments, Path.splitOn_of_not_mem hslash] at hsegments
  rw [makeDirs, FileAction.does_get_bind_iff] at h
  split at h
  · exact absurd h FileAction.not_does_throw_ok
  · split at h
    · exact absurd h FileAction.not_does_throw_ok
    · rw [Path.isAbsolute_join, Path.not_absolute_of_not_mem hslash, Bool.false_or,
        Path.segments, hsegments] at h
      exact (does_makeDirsFrom_steps hparent hcwd hsteps hbare).1 h

variable (hname : Path.IsName name)
include hname

theorem makeDirs_join (hcwd : m.HasCwd)
    (hlink : ∀ target, m.root.at? (here ++ [name]) ≠ some (.special (.link target)))
    (h : FileAction.Does (makeDirs (parent.join name)) m (.ok ()) after) :
    m.root.at? (here ++ [name]) = none ∧
        after = m.put (here ++ [name]) (some (.dir (m.granted 0o777) [])) ∨
      (∃ mode entries, m.root.at? (here ++ [name]) = some (.dir mode entries)) ∧ after = m := by
  have hhere : m.root.at? here = some (.dir mode entries) := (node_of_resolve hparent).symm
  have hlookup : m.root.at? (here ++ [name]) = entries.lookup name := by
    rw [at?_concat, hhere]
    rfl
  obtain ⟨next, node, hresolve, hafter⟩ := exists_of_makeDirsFrom_name hname
    (does_makeDirsFrom_name hparent hslash hcwd h)
  obtain ⟨-, hwalks⟩ := resolve_eq_ok_iff.1 hresolve
  rw [Path.segments, Path.splitOn_of_not_mem hslash, Path.not_absolute_of_not_mem hslash] at hwalks
  have hthere := (hwalks.into hhere hname (by rwa [← hlookup])).eq_of_nil
  obtain ⟨rfl, rfl⟩ := Place.mk.inj hthere
  exact hafter

variable (hdir : m.root.at? (here ++ [name]) = some (.dir mode' entries'))
  (hchild : Path.IsName child) (hchildSlash : Path.slash ∉ child)
include hdir hchild hchildSlash

theorem location_of_join_join
    (hlink : ∀ target, m.root.at? (here ++ [name, child]) ≠ some (.special (.link target)))
    (h : m.resolve ((parent.join name).join child) = .ok place) :
    place = ⟨here ++ [name, child], m.root.at? (here ++ [name, child])⟩ := by
  obtain ⟨links, hwalks⟩ := exists_walks_below hparent hname hslash hdir
    (Path.not_absolute_of_not_mem hchildSlash) h
  have hlookup : m.root.at? (here ++ [name, child]) = entries'.lookup child := by
    rw [← List.singleton_append, ← List.append_assoc, at?_concat, hdir]
    rfl
  rw [Path.segments, Path.splitOn_of_not_mem hchildSlash] at hwalks
  have hthere := (hwalks.into hdir hchild (by rwa [← hlookup])).eq_of_nil
  rwa [List.append_assoc, List.singleton_append] at hthere

theorem writeFile_join_join
    (hspecial : ∀ special, m.root.at? (here ++ [name, child]) ≠ some (.special special))
    (h : FileAction.Does (writeFile ((parent.join name).join child) content) m (.ok ()) after) :
    ∃ old bits, m.Opens ((parent.join name).join child) (.file (here ++ [name, child]) old bits) ∧
      after = m.put (here ++ [name, child]) (some (.file content bits)) := by
  have hlocation : ∀ {place}, m.resolve ((parent.join name).join child) = .ok place →
      place = ⟨here ++ [name, child], m.root.at? (here ++ [name, child])⟩ := fun hplace =>
    location_of_join_join hparent hslash hname hdir hchild hchildSlash
      (fun target => hspecial (.link target)) hplace
  rcases exists_opens_of_rewrite h with ⟨location, old, bits, hopens, rfl⟩ | ⟨special, hopens, -⟩
  · obtain rfl := congrArg Place.location (hlocation hopens.node_of_file.1)
    exact ⟨old, bits, hopens, rfl⟩
  · cases hopens with
    | special hplace =>
      exact absurd (congrArg Place.node (hlocation hplace)).symm (hspecial special)

end Parent

/-- All is as it was at the start, but for what is below one directory: that is what the view says,
and no way through the tree is lost. -/
structure Shows (start m : Machine) (here : Location) (view : Location → Option Node) : Prop where
  cwd : m.cwd = start.cwd
  mask : m.mask = start.mask
  ways : start.root.KeepsWays m.root
  below : ∀ location, (m.root.at? (here ++ location)).map Node.bare = view location
  outside : ∀ location, ¬here <+: location →
    (m.root.at? location).map Node.bare = (start.root.at? location).map Node.bare

namespace Shows
variable {start : Machine} {view : Location → Option Node} {location : Location} {node : Node}

theorem empty (h : m.root.at? here = some (.dir mode [])) :
    Shows m m here fun location => if location = [] then some (.dir mode []) else none where
  cwd := rfl
  mask := rfl
  ways := (Keeps.refl m.root).ways
  below location := by
    split
    · next hnil => rw [hnil, List.append_nil, h, Option.map_some, Node.bare]
    · next hsome =>
      have hempty : ∀ old, m.root.at? here = some old → old.entries = [] := fun old hold =>
        Option.some.inj (h.symm.trans hold) ▸ rfl
      rw [at?_below_eq_none hempty hsome, Option.map_none]
  outside _ _ := rfl

theorem put (h : Shows start m here view)
    (hold : ∀ old, m.root.at? (here ++ location) = some old → old.entries = [])
    (hnode : node.entries = [])
    (hput : (m.root.put (some node) (here ++ location)).at? (here ++ location) = some node)
    (hways : m.root.KeepsWays (m.root.put (some node) (here ++ location))) :
    Shows start (m.put (here ++ location) (some node)) here fun other =>
      if other = location then some node else view other where
  cwd := h.cwd
  mask := h.mask
  ways := h.ways.trans hways
  below other := by
    split
    · next hsame =>
      rw [hsame, Machine.put, hput]
      exact congrArg some (bare_eq_self hnode)
    · next hne =>
      rw [← h.below]
      exact at?_put_of_ne hold hnode hput (mt List.append_cancel_left hne)
  outside other hother := by
    rw [← h.outside other hother]
    exact at?_put_frame fun hprefix => hother ((List.prefix_append here location).trans hprefix)

theorem hasCwd (h : Shows start m here view) (hcwd : start.HasCwd) : m.HasCwd :=
  hcwd.of_ways h.ways h.cwd

theorem granted_eq (h : Shows start m here view) (wanted : Nat) :
    m.granted wanted = start.granted wanted := by
  rw [granted, h.mask, granted]

end Shows

end MergeTrial.Machine
