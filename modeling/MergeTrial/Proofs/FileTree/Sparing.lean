import MergeTrial.Proofs.FileTree.Saving

/-! What an action leaves as it is. Making a directory touches nothing but the directories on the
way to it that were missing, and rewriting a file nothing but the file that the path leads to. -/

namespace MergeTrial

namespace Node
variable {root : Node} {here location next : Location} {segments front rest : List Bytes}
  {place : Place} {links more mode : Nat} {entries : List (Bytes × Node)}

theorem Walks.append (h : Walks root links here front ⟨next, some (.dir mode entries)⟩)
    (hrest : Walks root more next rest place) : Walks root (links + more) here (front ++ rest)
      place := by
  generalize hplace : (⟨next, some (.dir mode entries)⟩ : Place) = last at h
  induction h with
  | done =>
    obtain rfl := congrArg Place.location hplace
    exact hrest.mono (Nat.le_add_left ..)
  | link h _ ih =>
    have honward := ih hplace
    rw [List.append_assoc, List.cons_append] at honward
    rw [Nat.add_right_comm]
    exact .link h honward
  | stay h hstay _ ih => exact .stay h hstay (ih hplace)
  | up h _ ih => exact .up h (ih hplace)
  | down h henters hdown _ ih =>
    refine .down h henters ?_ (ih hplace)
    rintro ⟨hnil, hlink⟩
    exact hdown ⟨(List.append_eq_nil_iff.1 hnil).1, hlink⟩
  | @ends links here _ entries segment target _ h henters hlink hwalks ih =>
    rw [Nat.add_right_comm]
    cases rest with
    | nil =>
      have honward := ih hplace
      rw [List.append_nil] at honward
      exact .ends h henters hlink honward
    | cons first rest =>
      have hthere : root.at? (here ++ [segment]) = some (.special (.link target)) := by
        rw [at?_concat, h]
        exact hlink
      refine .down h henters (fun hends => nomatch hends.1) (.link hthere ?_)
      rw [List.dropLast_concat]
      exact ih hplace

end Node

namespace Machine
open Node
variable {m between after : Machine} {here location : Location} {segment : Bytes}
  {segments rest : List Bytes} {path : Path} {more : Bytes} {change : Bytes → Bytes} {mode : Nat}
  {entries : List (Bytes × Node)} {result : Except FileFault Unit}
  {changed other : Location → Prop}

/-- Nothing is lost, and all is as it was but for what is at the locations that may have changed. -/
structure Spares (m after : Machine) (changed : Location → Prop) : Prop where
  cwd : after.cwd = m.cwd
  searchPath : after.searchPath = m.searchPath
  mask : after.mask = m.mask
  strays : after.strays = m.strays
  ways : m.root.KeepsWays after.root
  frame : ∀ location, ¬changed location →
    (after.root.at? location).map Node.bare = (m.root.at? location).map Node.bare

namespace Spares

theorem refl (m : Machine) (changed : Location → Prop) : m.Spares m changed :=
  ⟨rfl, rfl, rfl, rfl, (Keeps.refl m.root).ways, fun _ _ => rfl⟩

theorem mono (h : m.Spares after changed) (hle : ∀ location, changed location → other location) :
    m.Spares after other :=
  { h with frame := fun location hnot => h.frame location (mt (hle location) hnot) }

theorem trans (h : m.Spares between changed) (hlast : between.Spares after changed) :
    m.Spares after changed where
  cwd := hlast.cwd.trans h.cwd
  searchPath := hlast.searchPath.trans h.searchPath
  mask := hlast.mask.trans h.mask
  strays := hlast.strays.trans h.strays
  ways := h.ways.trans hlast.ways
  frame location hnot := (hlast.frame location hnot).trans (h.frame location hnot)

end Spares

structure MadeOnWay (m after : Machine) (here : Location) (segments : List Bytes)
    (location : Location) : Prop where
  new : m.root.at? location = none
  isDir : ∃ mode entries, after.root.at? location = some (.dir mode entries)
  leads : ∃ front links, front <+: segments ∧
    Walks after.root links here front ⟨location, after.root.at? location⟩

theorem exists_dir_of_ways (hways : m.root.KeepsWays after.root)
    (h : m.root.at? here = some (.dir mode entries)) :
    ∃ others, after.root.at? here = some (.dir mode others) := by
  obtain ⟨kept, hkept, houtline⟩ := hways _ _ h
  obtain ⟨others, rfl⟩ := exists_dir_of_outline houtline
  exact ⟨others, hkept⟩

namespace MadeOnWay

theorem stay (h : MadeOnWay m after here rest location) {others : List (Bytes × Node)}
    (hhere : after.root.at? here = some (.dir mode others))
    (hstay : segment = [] ∨ segment = [Path.dot]) :
    MadeOnWay m after here (segment :: rest) location := by
  obtain ⟨front, links, hfront, hwalks⟩ := h.leads
  exact { h with leads :=
    ⟨segment :: front, links, List.cons_prefix_cons.2 ⟨rfl, hfront⟩, .stay hhere hstay hwalks⟩ }

theorem up (h : MadeOnWay m after here.dropLast rest location) {others : List (Bytes × Node)}
    (hhere : after.root.at? here = some (.dir mode others)) :
    MadeOnWay m after here ([Path.dot, Path.dot] :: rest) location := by
  obtain ⟨front, links, hfront, hwalks⟩ := h.leads
  exact { h with leads :=
    ⟨_ :: front, links, List.cons_prefix_cons.2 ⟨rfl, hfront⟩, .up hhere hwalks⟩ }

theorem down {next : Location} {links : Nat} {others : List (Bytes × Node)}
    (h : MadeOnWay between after next rest location)
    (hwalks : Walks after.root links here [segment] ⟨next, some (.dir mode others)⟩)
    (hnew : m.root.at? location = none) :
    MadeOnWay m after here (segment :: rest) location := by
  obtain ⟨front, more, hfront, honward⟩ := h.leads
  exact { h with new := hnew, leads :=
    ⟨segment :: front, links + more, List.cons_prefix_cons.2 ⟨rfl, hfront⟩, hwalks.append honward⟩ }

theorem later (h : MadeOnWay m between here segments location)
    (hways : between.root.KeepsWays after.root) : MadeOnWay m after here segments location := by
  obtain ⟨mode, entries, hdir⟩ := h.isDir
  obtain ⟨others, hothers⟩ := exists_dir_of_ways hways hdir
  obtain ⟨front, links, hfront, hwalks⟩ := h.leads
  refine ⟨h.new, ⟨mode, others, hothers⟩, front, links, hfront, hwalks.keeps hways ?_⟩
  exact fun hnone => nomatch hdir.symm.trans hnone

end MadeOnWay

theorem spares_of_throw {fault : FileFault} (h : FileAction.Does (throw fault) m result after) :
    m.Spares after changed := by
  obtain ⟨-, rfl⟩ := FileAction.does_throw_iff.1 h
  exact .refl after changed

theorem walks_of_resolve {next : Location} {node : Option Node}
    (h : m.root.resolve here segment = .ok ⟨next, node⟩) (hslash : Path.slash ∉ segment) :
    Walks m.root maxLinks here [segment] ⟨next, node⟩ := by
  obtain ⟨-, hwalks⟩ := resolve_eq_ok_iff.1 h
  rwa [Path.not_absolute_of_not_mem hslash, Path.segments, Path.splitOn_of_not_mem hslash] at hwalks

theorem spares_put {node : Node} (hnone : m.root.at? location = none) (hnode : node.entries = [])
    (hput : (m.put location (some node)).root.at? location = some node) :
    m.Spares (m.put location (some node)) (· = location) where
  cwd := rfl
  searchPath := rfl
  mask := rfl
  strays := rfl
  ways := (keeps_put hnone _).ways
  frame _ hne := at?_put_of_ne (fun _ hold => nomatch hnone.symm.trans hold) hnode hput hne

theorem MakesDirs.spares (hmakes : MakesDirs m here segments result after)
    (hhere : m.root.at? here = some (.dir mode entries))
    (hplain : ∀ segment ∈ segments, Path.slash ∉ segment) :
    m.Spares after (MadeOnWay m after here segments) := by
  induction hmakes generalizing mode entries with
  | done => exact .refl _ _
  | stay hstay _ ih =>
    have hspares := ih hhere (List.forall_mem_cons.1 hplain).2
    obtain ⟨others, hothers⟩ := exists_dir_of_ways hspares.ways hhere
    exact hspares.mono fun _ hmade => hmade.stay hothers hstay
  | up _ ih =>
    obtain ⟨_, _, haround⟩ := exists_dir_of_at?_dropLast hhere
    have hspares := ih haround (List.forall_mem_cons.1 hplain).2
    obtain ⟨others, hothers⟩ := exists_dir_of_ways hspares.ways hhere
    exact hspares.mono fun _ hmade => hmade.up hothers
  | @down m _ segment _ _ after next _ _ hresolve _ ih =>
    obtain ⟨hslash, hrest⟩ := List.forall_mem_cons.1 hplain
    have hwalks := walks_of_resolve hresolve hslash
    have hnext : m.root.at? next = some _ := (node_of_walks hwalks).symm
    have hspares := ih hnext hrest
    obtain ⟨others, hothers⟩ := exists_dir_of_ways hspares.ways hnext
    have hleads := hwalks.keeps hspares.ways fun hnone =>
      absurd (hnext.symm.trans hnone) (Option.some_ne_none _)
    rw [hothers] at hleads
    exact hspares.mono fun _ hmade => hmade.down hleads hmade.new
  | @make m _ segment _ _ after next hresolve hchange _ ih =>
    obtain ⟨hslash, hrest⟩ := List.forall_mem_cons.1 hplain
    have hwalks := walks_of_resolve hresolve hslash
    have hnone : m.root.at? next = none := (node_of_walks hwalks).symm
    have hmade : (m.put next (some (.dir (m.granted 0o777) []))).root.at? next =
        some (.dir (m.granted 0o777) []) := at?_put_of_mayChange hchange hnone
    have hput := spares_put hnone rfl hmade
    have hspares := ih hmade hrest
    obtain ⟨others, hothers⟩ := exists_dir_of_ways hspares.ways hmade
    -- the segment leads to the new directory from now on
    have hleads := hwalks.keeps (hput.ways.trans hspares.ways) fun _ node hnode =>
      Option.some.inj (hothers.symm.trans hnode) ▸ rfl
    refine (hput.mono ?_).trans (hspares.mono ?_)
    · rintro _ rfl
      exact ⟨hnone, ⟨_, others, hothers⟩, [segment], _,
        List.cons_prefix_cons.2 ⟨rfl, List.nil_prefix⟩, hleads⟩
    · intro location hlocation
      rw [hothers] at hleads
      refine hlocation.down hleads ?_
      exact (keeps_put hnone _).at?_eq_none hlocation.new
  | refuse => exact .refl _ _

def startOf (m : Machine) (path : Path) : Location := if Path.isAbsolute path then [] else m.cwd

theorem spares_of_makeDirs (hcwd : m.HasCwd)
    (h : FileAction.Does (makeDirs path) m result after) :
    m.Spares after (MadeOnWay m after (m.startOf path) (Path.segments path)) := by
  obtain ⟨_, _, hstart⟩ := hcwd.start path.isAbsolute
  rw [makeDirs, FileAction.does_get_bind_iff] at h
  split at h
  · exact spares_of_throw h
  · split at h
    · exact spares_of_throw h
    · exact (makesDirs_of_does h).spares hstart fun _ hmem => (Path.not_mem_of_mem_splitOn hmem).1

def IsFileAt (m : Machine) (path : Path) (location : Location) : Prop :=
  ∃ content mode, m.resolve path = .ok ⟨location, some (.file content mode)⟩

theorem IsFileAt.later (h : m.IsFileAt path location) (hways : m.root.KeepsWays after.root)
    (hcwd : after.cwd = m.cwd) : after.IsFileAt path location := by
  obtain ⟨content, mode, hfile⟩ := h
  have hnode := node_of_resolve hfile
  obtain ⟨kept, hkept, houtline⟩ := hways _ _ hnode.symm
  have hleads := resolve_of_ways hfile hways hcwd fun hnone => nomatch hnode.trans hnone
  rw [hkept] at hleads
  cases kept with
  | file content mode => exact ⟨content, mode, hleads⟩
  | _ => exact nomatch houtline

namespace Opens
variable {content : Bytes}

theorem spares (h : m.Opens path (.file location content mode)) :
    m.Spares (m.put location (some (.file more mode)))
      ((m.put location (some (.file more mode))).IsFileAt path) where
  cwd := rfl
  searchPath := rfl
  mask := rfl
  strays := rfl
  ways := h.keepsWays
  frame other hother := by
    have hold : ∀ old, m.root.at? location = some old → old.entries = [] := by
      intro old hsome
      rcases h.node_of_file.2 with ⟨hfile, -⟩ | ⟨hnone, -⟩
      · exact Option.some.inj (hfile.symm.trans hsome) ▸ rfl
      · exact nomatch hnone.symm.trans hsome
    refine at?_put_of_ne hold rfl h.at?_put ?_
    rintro rfl
    exact hother ⟨more, mode, h.resolve_put⟩

end Opens

theorem spares_of_rewrite (h : FileAction.Does (rewrite path more change) m result after) :
    m.Spares after (after.IsFileAt path) := by
  rw [rewrite, FileAction.does_get_bind_iff] at h
  split at h
  · next location content mode hopen =>
    obtain ⟨-, rfl⟩ := FileAction.does_set_iff.1 h
    exact (opens_of_openForWriting hopen).spares
  · next special hopen =>
    cases hfeed : feed special more with
    | ok =>
      rw [hfeed] at h
      obtain ⟨-, rfl⟩ := FileAction.does_pure_iff.1 h
      exact .refl after _
    | error fault =>
      rw [hfeed] at h
      exact spares_of_throw h
  · exact spares_of_throw h

end Machine
end MergeTrial
