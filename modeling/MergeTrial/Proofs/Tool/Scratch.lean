import Mathlib.Data.List.Nodup
import Mathlib.Data.List.Perm.Subperm
import MergeTrial.Proofs.FileTree.Writing
import MergeTrial.Proofs.Text.Encoding
import MergeTrial.Tool.Staging

/-! Staging step by step. The scratch directory is new when it is made; each input that is written
is one new file in it, with a name of its own, and the path of the file leads there. -/

namespace MergeTrial.Staging

section Names

theorem zeroPadded_injective (width : Nat) : (Text.zeroPadded width).Injective := by
  have hvalue : ∀ n, Nat.ofDigitChars 10 (Text.zeroPadded width n).toList 0 = n := by
    intro n
    rw [Text.zeroPadded, String.toList_append, String.toList_ofList, Nat.ofDigitChars_append,
      Nat.ofDigitChars_replicate_zero, Nat.mul_zero, Nat.toString_eq_repr, Nat.toList_repr]
    exact Nat.ofDigitChars_ten_toDigits
  intro n k h
  rw [← hvalue n, h, hvalue]

theorem scratchName_injective : scratchName.Injective := by
  intro n k h
  refine zeroPadded_injective 6 (String.toList_inj.1 ?_)
  have htext := congrArg String.toList (Bytes.ofString_inj.1 h)
  rw [String.toList_append, String.toList_append] at htext
  exact List.append_cancel_left htext

theorem freshName_spec (taken : List Bytes) :
    (∃ n, freshName taken = scratchName n) ∧ freshName taken ∉ taken := by
  have hnodup : ((List.range (taken.length + 1)).map scratchName).Nodup :=
    List.Nodup.map scratchName_injective List.nodup_range
  cases hfind : ((List.range (taken.length + 1)).map scratchName).find?
      fun name => !taken.contains name with
  | none =>
    have hall : (List.range (taken.length + 1)).map scratchName ⊆ taken := by
      intro name hname
      simpa using List.find?_eq_none.1 hfind name hname
    have hlength := (hnodup.subperm hall).length_le
    rw [List.length_map, List.length_range] at hlength
    exact absurd hlength (Nat.not_succ_le_self _)
  | some name =>
    have hfresh : freshName taken = name := by rw [freshName, hfind, Option.getD_some]
    rw [hfresh]
    obtain ⟨n, -, hn⟩ := List.mem_map.1 (List.mem_of_find?_eq_some hfind)
    exact ⟨⟨n, hn.symm⟩, by simpa using List.find?_some hfind⟩

theorem startsPlain_scratchName (n : Nat) : Path.StartsPlain (scratchName n) := by
  rw [scratchName, Bytes.ofString_append]
  exact ⟨_, _, rfl, by decide, by decide⟩

theorem slash_not_mem_scratchName (n : Nat) : Path.slash ∉ scratchName n := by
  refine Bytes.slash_not_mem_ofString fun hmem => ?_
  simp only [Text.zeroPadded, String.toList_append, String.toList_ofList, List.mem_append,
    List.mem_replicate, Nat.toString_eq_repr, Nat.toList_repr] at hmem
  rcases hmem with hmem | ⟨-, hmem⟩ | hmem
  · exact absurd hmem (by decide)
  · exact absurd hmem (by decide)
  · exact absurd (Nat.isDigit_of_mem_toDigits (by decide) (by decide) hmem) (by decide)

end Names

section Inputs
variable {scenario : Scenario}

def inputs (scenario : Scenario) : List (String × String) :=
  [("base", scenario.ancestor), ("left", scenario.left), ("right", scenario.right)]

def nameOf (scenario : Scenario) (stem : String) : Bytes :=
  match scenario.extension with
  | some extension => Bytes.ofString (stem ++ "." ++ extension)
  | none => Bytes.ofString stem

def shown (scratch : Scratch) (scenario : Scenario) : StagedPaths where
  base := Bytes.display (scratch.path.join (nameOf scenario "base"))
  left := Bytes.display (scratch.path.join (nameOf scenario "left"))
  right := Bytes.display (scratch.path.join (nameOf scenario "right"))

theorem ofString_fileName (scenario : Scenario) (stem : String) :
    Bytes.ofString (fileName scenario stem) = nameOf scenario stem := by
  rw [fileName, nameOf]
  cases scenario.extension <;> rfl

theorem filePath_eq (scratch : Scratch) (scenario : Scenario) (stem : String) :
    filePath scratch scenario stem = scratch.path.join (nameOf scenario stem) := by
  rw [filePath, ofString_fileName]

theorem paths_eq (scratch : Scratch) (scenario : Scenario) :
    paths scratch scenario = shown scratch scenario := by
  simp only [paths, shown, filePath_eq]

theorem head?_nameOf {first : UInt8} {stem : String}
    (h : (Bytes.ofString stem).head? = some first) (scenario : Scenario) :
    (nameOf scenario stem).head? = some first := by
  rw [nameOf]
  cases scenario.extension with
  | none => exact h
  | some extension =>
    simp only [Bytes.ofString_append, List.append_assoc, List.head?_append, h, Option.some_or]

theorem inputs_plain (scenario : Scenario) :
    (∀ input ∈ inputs scenario, Path.StartsPlain (nameOf scenario input.1)) ∧
    (inputs scenario).Pairwise fun one other =>
      (nameOf scenario one.1).head? ≠ (nameOf scenario other.1).head? := by
  have hbase : (nameOf scenario "base").head? = some 98 := head?_nameOf rfl scenario
  have hleft : (nameOf scenario "left").head? = some 108 := head?_nameOf rfl scenario
  have hright : (nameOf scenario "right").head? = some 114 := head?_nameOf rfl scenario
  constructor
  · intro input hinput
    have hhead : ∃ first, (nameOf scenario input.1).head? = some first ∧ first ≠ Path.slash ∧
        first ≠ Path.dot := by
      simp only [inputs, List.mem_cons, List.not_mem_nil, or_false] at hinput
      rcases hinput with rfl | rfl | rfl
      · exact ⟨98, hbase, by decide, by decide⟩
      · exact ⟨108, hleft, by decide, by decide⟩
      · exact ⟨114, hright, by decide, by decide⟩
    obtain ⟨first, hfirst, hplain⟩ := hhead
    obtain ⟨rest, hrest⟩ := List.head?_eq_some_iff.1 hfirst
    exact ⟨first, rest, hrest, hplain⟩
  · simp [inputs, hbase, hleft, hright]

def fileOf (m : Machine) (text : String) : Node :=
  .file (Bytes.ofString text) (m.granted 0o666)

def entryOf (scenario : Scenario) (m : Machine) (input : String × String) : Bytes × Node :=
  (nameOf scenario input.1, fileOf m input.2)

/-- So many of the inputs have been staged on a machine that was once like this, in a directory that
was not there then, and nothing else is in it. -/
structure Holds (scenario : Scenario) (before m : Machine) (scratch : Scratch)
    (written : List (String × String)) : Prop where
  grows : before.Grows m
  fresh : before.root.at? scratch.location = none
  contents : m.root.at? scratch.location =
    some (.dir (before.granted 0o700) (written.map (entryOf scenario before)))
  leads : ∀ input ∈ written, m.resolve (scratch.path.join (nameOf scenario input.1)) =
    .ok ⟨scratch.location ++ [nameOf scenario input.1], some (fileOf before input.2)⟩
  reached : ∃ parent location name mode entries, Path.StartsPlain name ∧ Path.slash ∉ name ∧
    scratch = ⟨location ++ [name], Path.join parent name⟩ ∧
    m.resolve parent = .ok ⟨location, some (.dir mode entries)⟩

variable {before m after : Machine} {scratch : Scratch} {written : List (String × String)}

theorem granted_of_grows (h : before.Grows m) (wanted : Nat) :
    m.granted wanted = before.granted wanted := by
  rw [Machine.granted, Machine.granted, h.mask]

theorem holds_put (scenario : Scenario) {parent : Path} {location : Location} {mode n : Nat}
    {entries : List (Bytes × Node)} (hgrows : before.Grows m)
    (hparent : m.resolve parent = .ok ⟨location, some (.dir mode entries)⟩)
    (hfresh : scratchName n ∉ entries.map Prod.fst) :
    Holds scenario before
      (m.put (location ++ [scratchName n]) (some (.dir (m.granted 0o700) [])))
      ⟨location ++ [scratchName n], parent.join (scratchName n)⟩ [] := by
  have hlocation : m.root.at? location = some (.dir mode entries) :=
    (Node.node_of_resolve hparent).symm
  have hnone : m.root.at? (location ++ [scratchName n]) = none := by
    rw [Node.at?_concat, hlocation]
    exact Node.lookup_of_not_mem hfresh
  have hgrown : m.Grows
      (m.put (location ++ [scratchName n]) (some (.dir (m.granted 0o700) []))) :=
    Machine.grows_put hnone rfl
  obtain ⟨others, hothers⟩ := Machine.resolve_dir_of_grows hparent hgrown
  constructor
  case grows => exact hgrows.trans hgrown
  case fresh => exact hgrows.keeps.at?_eq_none hnone
  case contents =>
    rw [← granted_of_grows hgrows]
    exact Node.at?_put_some hlocation
  case leads => exact fun _ hmem => absurd hmem List.not_mem_nil
  case reached =>
    exact ⟨parent, location, scratchName n, mode, others, startsPlain_scratchName n,
      slash_not_mem_scratchName n, rfl, hothers⟩

theorem makeScratch_spec (scenario : Scenario) {parent : Path}
    {result : Except FileFault Scratch} (hgrows : before.Grows m)
    (h : FileAction.Does (makeScratch parent) m result after) :
    (∃ fault, result = .error fault ∧ after = m) ∨
      ∃ scratch, result = .ok scratch ∧ Holds scenario before after scratch [] := by
  rw [makeScratch, FileAction.does_get_bind_iff] at h
  simp only at h
  split at h
  · exact Or.inl ⟨_, FileAction.does_throw_iff.1 h⟩
  · next place hplace =>
    split at h
    · next mode entries hdir =>
      split at h
      · exact Or.inl ⟨_, FileAction.does_throw_iff.1 h⟩
      · rw [FileAction.does_set_bind_iff, FileAction.does_pure_iff] at h
        obtain ⟨hresult, rfl⟩ := h
        obtain ⟨⟨n, hname⟩, hfresh⟩ := freshName_spec (entries.map Prod.fst)
        rw [hname] at hfresh hresult ⊢
        have hparent : m.resolve (m.cwdPath.join parent) =
            .ok ⟨place.location, some (.dir mode entries)⟩ := by
          rw [hplace, ← hdir]
        exact Or.inr ⟨_, hresult, holds_put scenario hgrows hparent hfresh⟩
    · exact Or.inl ⟨_, FileAction.does_throw_iff.1 h⟩
    · exact Or.inl ⟨_, FileAction.does_throw_iff.1 h⟩

section Next
variable {input : String × String} (h : Holds scenario before m scratch written)
  (hother : ∀ earlier ∈ written,
    (nameOf scenario earlier.1).head? ≠ (nameOf scenario input.1).head?)
include h hother

theorem Holds.put_file {location : Location}
    (hlocation : location = scratch.location ++ [nameOf scenario input.1])
    (hresolve : m.resolve (scratch.path.join (nameOf scenario input.1)) = .ok ⟨location, none⟩)
    (hafter : after = m.put location (some (fileOf m input.2))) :
    m.Grows after ∧ Holds scenario before after scratch (written ++ [input]) := by
  have hgrown : m.Grows after := hafter ▸ Machine.grows_put (Node.node_of_resolve hresolve).symm rfl
  have hfile : fileOf m input.2 = fileOf before input.2 := by
    rw [fileOf, fileOf, granted_of_grows h.grows]
  have hthere : after.root.at? location = some (fileOf before input.2) := by
    rw [hafter, hfile, hlocation]
    exact Node.at?_put_some h.contents
  refine ⟨hgrown, ?_⟩
  constructor
  case grows => exact h.grows.trans hgrown
  case fresh => exact h.fresh
  case contents =>
    have hnew : nameOf scenario input.1 ∉ (written.map (entryOf scenario before)).map Prod.fst := by
      intro hmem
      rw [List.map_map] at hmem
      obtain ⟨earlier, hearlier, heq⟩ := List.mem_map.1 hmem
      exact hother earlier hearlier (congrArg List.head? heq)
    rw [hafter, hlocation]
    refine (Node.at?_put_parent h.contents).trans ?_
    rw [Node.putEntry_of_not_mem hnew, List.map_append, List.map_singleton, entryOf, ← hfile]
  case leads =>
    intro staged hstaged
    rcases List.mem_append.1 hstaged with hstaged | hstaged
    · exact Machine.resolve_file_of_grows (h.leads staged hstaged) hgrown
    · obtain rfl := List.mem_singleton.1 hstaged
      have hleads := Machine.resolve_of_grows hresolve hgrown fun _ node hnode =>
        Option.some.inj (hthere.symm.trans hnode) ▸ rfl
      rw [hleads, hthere, hlocation]
  case reached =>
    obtain ⟨parent, around, name, mode, _, hname, hslash, hscratch, hparent⟩ := h.reached
    obtain ⟨others, hothers⟩ := Machine.resolve_dir_of_grows hparent hgrown
    exact ⟨parent, around, name, mode, others, hname, hslash, hscratch, hothers⟩

theorem Holds.write_spec (hinput : Path.StartsPlain (nameOf scenario input.1))
    {result : Except FileFault Unit}
    (hwrites : FileAction.Does (Machine.writeFile (filePath scratch scenario input.1)
      (Bytes.ofString input.2)) m result after) :
    (∃ fault, result = .error fault ∧ after = m) ∨
      result = .ok () ∧ m.Grows after ∧
        Holds scenario before after scratch (written ++ [input]) := by
  rw [filePath_eq] at hwrites
  -- no name in the directory starts as this one, so its path, should it have slashes, goes nowhere
  have hplace : ∀ place, m.resolve (scratch.path.join (nameOf scenario input.1)) = .ok place →
      place = ⟨scratch.location ++ [nameOf scenario input.1], none⟩ := by
    obtain ⟨parent, location, name, mode, entries, hname, hslash, rfl, hparent⟩ := h.reached
    refine fun place hplace => (Machine.resolve_new_below hparent hname hslash h.contents hinput
      (fun key hkey => ?_) hplace).2
    rw [List.map_map] at hkey
    obtain ⟨earlier, hearlier, rfl⟩ := List.mem_map.1 hkey
    exact hother earlier hearlier
  rcases Machine.writeFile_new hwrites fun place h => hplace place h ▸ rfl with
    hfault | ⟨hresult, place, hresolve, hafter⟩
  · exact Or.inl hfault
  · obtain rfl := hplace place hresolve
    exact Or.inr ⟨hresult, h.put_file hother rfl hresolve hafter⟩

end Next

theorem eq_of_makeScratch_error {parent : Path} {fault : FileFault}
    (h : FileAction.Does (makeScratch parent) m (.error fault) after) : after = m := by
  rcases makeScratch_spec default (.refl m) h with ⟨_, -, hafter⟩ | ⟨_, h, -⟩
  · exact hafter
  · exact nomatch h

theorem holds_of_makeScratch_ok (scenario : Scenario) {parent : Path} (hgrows : before.Grows m)
    (h : FileAction.Does (makeScratch parent) m (.ok scratch) after) :
    Holds scenario before after scratch [] := by
  rcases makeScratch_spec scenario hgrows h with ⟨_, h, -⟩ | ⟨_, h, hholds⟩
  · exact nomatch h
  · exact Except.ok.inj h ▸ hholds

section Order
variable {left : List (String × String)} {input : String × String} {result : Except FileFault Unit}
  (hinputs : inputs scenario = written ++ input :: left)
  (h : Holds scenario before m scratch written)
include hinputs h

theorem Holds.write_next (hwrites : FileAction.Does (Machine.writeFile
      (filePath scratch scenario input.1) (Bytes.ofString input.2)) m result after) :
    (∃ fault, result = .error fault ∧ after = m) ∨
      result = .ok () ∧ m.Grows after ∧
        Holds scenario before after scratch (written ++ [input]) := by
  obtain ⟨hplain, hpairwise⟩ := inputs_plain scenario
  rw [hinputs] at hplain hpairwise
  have hother := fun earlier hearlier =>
    (List.pairwise_append.1 hpairwise).2.2 earlier hearlier input List.mem_cons_self
  exact h.write_spec hother (hplain input (List.mem_append_right _ List.mem_cons_self)) hwrites

theorem Holds.write_error {fault : FileFault} (hwrites : FileAction.Does (Machine.writeFile
      (filePath scratch scenario input.1) (Bytes.ofString input.2)) m (.error fault) after) :
    after = m := by
  rcases h.write_next hinputs hwrites with ⟨_, -, hafter⟩ | ⟨h, -⟩
  · exact hafter
  · exact nomatch h

theorem Holds.write_ok (hwrites : FileAction.Does (Machine.writeFile
      (filePath scratch scenario input.1) (Bytes.ofString input.2)) m (.ok ()) after) :
    m.Grows after ∧ Holds scenario before after scratch (written ++ [input]) := by
  rcases h.write_next hinputs hwrites with ⟨_, h, -⟩ | ⟨-, hwritten⟩
  · exact nomatch h
  · exact hwritten

end Order

theorem Holds.location_ne_nil (h : Holds scenario before m scratch written) :
    scratch.location ≠ [] := by
  obtain ⟨_, _, _, _, _, -, -, rfl, -⟩ := h.reached
  exact List.append_ne_nil_of_right_ne_nil _ (List.cons_ne_nil _ _)

theorem writeInputs_eq (scratch : Scratch) (scenario : Scenario) : writeInputs scratch scenario =
    forM (inputs scenario) fun input =>
      Machine.writeFile (filePath scratch scenario input.1) (Bytes.ofString input.2) := by
  simp [writeInputs, inputs]

end Inputs

section Removal
variable {m : Machine} {scratch : Scratch}

def removed (scratch : Scratch) (m : Machine) : Machine := ((remove scratch).run m).2

theorem removed_eq (scratch : Scratch) (m : Machine) : removed scratch m =
    if (m.root.at? scratch.location).any (·.isDir) then m.put scratch.location none
    else { m with strays := scratch.path :: m.strays } := rfl

theorem not_isDir_removed (hdistinct : m.root.NamesDistinct) (hlocation : scratch.location ≠ []) :
    ((removed scratch m).root.at? scratch.location).any (·.isDir) = false := by
  rw [removed_eq]
  split
  · have hnone : (m.put scratch.location none).root.at? scratch.location = none :=
      Node.at?_put_none hdistinct hlocation
    rw [hnone]
    rfl
  · next hdir => exact Bool.eq_false_iff.2 hdir

theorem map_bare_removed {location : Location} (h : ¬scratch.location <+: location) :
    ((removed scratch m).root.at? location).map Node.bare =
      (m.root.at? location).map Node.bare := by
  rw [removed_eq]
  split
  · exact Node.at?_put_frame h
  · rfl

end Removal

end MergeTrial.Staging
