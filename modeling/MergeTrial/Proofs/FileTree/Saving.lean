import MergeTrial.Proofs.FileTree.Making
import MergeTrial.Proofs.Text.Encoding

/-! Saving a text where a path leads to a file, or to nothing yet: the file has the text then, and
the path leads to it. -/

namespace MergeTrial.Machine
open Node
variable {m after : Machine} {path : Path} {place : Place} {location : Location}
  {content more : Bytes} {mode : Nat} {value : Node} {change : Bytes → Bytes}

theorem text_file_eq_ok_iff {text : String} : (Node.file content mode).text = .ok text ↔
    Right.read.isIn mode = true ∧ content = Bytes.ofString text := by
  rw [← Bytes.text?_eq_some_iff, Node.text, Node.content]
  cases Right.read.isIn mode with
  | false => exact ⟨nofun, nofun⟩
  | true =>
    simp only [if_true, true_and, bind, Except.bind]
    cases Bytes.text? content with
    | none => exact ⟨nofun, nofun⟩
    | some other =>
      exact ⟨fun h => congrArg some (Except.ok.inj h),
        fun h => congrArg Except.ok (Option.some.inj h)⟩

theorem HasCwd.of_ways (hcwd : m.HasCwd) (hways : m.root.KeepsWays after.root)
    (hsame : after.cwd = m.cwd) : after.HasCwd := by
  obtain ⟨mode, entries, hdir⟩ := hcwd
  obtain ⟨kept, hkept, houtline⟩ := hways _ _ hdir
  obtain ⟨others, rfl⟩ := exists_dir_of_outline houtline
  exact ⟨mode, others, hsame ▸ hkept⟩

theorem resolve_put (h : m.resolve path = .ok place) (hvalue : value.link? = none)
    (hways : m.root.KeepsWays (m.root.put (some value) place.location))
    (hput : (m.root.put (some value) place.location).at? place.location = some value) :
    (m.put place.location (some value)).resolve path = .ok ⟨place.location, some value⟩ := by
  have hleads : (m.put place.location (some value)).resolve path = .ok ⟨place.location,
      (m.root.put (some value) place.location).at? place.location⟩ :=
    resolve_of_ways h hways rfl fun _ node hnode => by
      obtain rfl := Option.some.inj (hput.symm.trans hnode)
      exact hvalue
  rwa [hput] at hleads

theorem at?_put_of_mayChange (hchange : m.mayChange location = true)
    (hnone : m.root.at? location = none) :
    (m.root.put (some value) location).at? location = some value := by
  rcases List.eq_nil_or_concat location with rfl | ⟨parent, name, rfl⟩
  · exact nomatch hnone
  · rw [List.concat_eq_append] at hchange ⊢
    rw [mayChange, List.dropLast_concat] at hchange
    split at hchange
    · next mode entries hdir => exact at?_put_some hdir
    · exact nomatch hchange

theorem getLast?_ne_slash (h : m.resolve path = .ok place)
    (hplace : ∀ node ∈ place.node, node.isDir = false) (hcwd : m.HasCwd) :
    (path.getLast? == some Path.slash) = false := by
  obtain ⟨-, hwalks⟩ := resolve_eq_ok_iff.1 h
  obtain ⟨mode, entries, hhere⟩ := hcwd.start path.isAbsolute
  obtain ⟨front, last, -, -, -, -, hsegments, hlast, -⟩ := exists_last_step hwalks hhere hplace
  refine beq_eq_false_iff_ne.2 fun hslash => ?_
  obtain ⟨before, rfl⟩ := List.getLast?_eq_some_iff.1 hslash
  have hlists : Path.segments before ++ [[]] = front ++ [last] :=
    (Path.splitOn_append_cons Path.slash before []).symm.trans hsegments
  exact hlast.ne_nil (List.singleton_inj.1 (List.append_inj_right' hlists rfl)).symm

theorem does_saveFile_iff (h : m.resolve path = .ok place)
    (hplace : ∀ node ∈ place.node, node.isDir = false) (hcwd : m.HasCwd) (text : String)
    {result : Except FileFault Unit} : FileAction.Does (saveFile path text) m result after ↔
      FileAction.Does (writeFile path (Bytes.ofString text)) m result after := by
  obtain ⟨parent, hparent, hmake⟩ := does_makeDirs_parent h hplace hcwd
  rw [saveFile, hparent]
  simp only [FileAction.does_bind_iff]
  constructor
  · rintro (⟨_, between, hdone, hwrite⟩ | ⟨fault, hfails, -⟩)
    · obtain ⟨-, rfl⟩ := hmake.unique hdone
      exact hwrite
    · exact nomatch (hmake.unique hfails).1
  · exact fun hwrite => Or.inl ⟨(), m, hmake, hwrite⟩

namespace Opens

theorem node_of_file (h : m.Opens path (.file location content mode)) :
    m.resolve path = .ok ⟨location, m.root.at? location⟩ ∧
      (m.root.at? location = some (.file content mode) ∧ Right.write.isIn mode = true ∨
        m.root.at? location = none ∧ m.mayChange location = true) := by
  cases h with
  | existing h hwrite =>
    have hnode := node_of_resolve h
    exact ⟨hnode ▸ h, Or.inl ⟨hnode.symm, hwrite⟩⟩
  | new h hchange =>
    have hnode := node_of_resolve h
    exact ⟨hnode ▸ h, Or.inr ⟨hnode.symm, hchange⟩⟩

variable (h : m.Opens path (.file location content mode))
include h

theorem keepsWays : m.root.KeepsWays (m.root.put (some (.file more mode)) location) := by
  rcases h.node_of_file.2 with ⟨hnode, -⟩ | ⟨hnone, -⟩
  · exact keepsWays_put_file hnode
  · exact (keeps_put hnone _).ways

theorem at?_put :
    (m.root.put (some (.file more mode)) location).at? location = some (.file more mode) := by
  rcases h.node_of_file.2 with ⟨hnode, -⟩ | ⟨hnone, hchange⟩
  · exact at?_put_of_some hnode
  · exact at?_put_of_mayChange hchange hnone

theorem resolve_put : (m.put location (some (.file more mode))).resolve path =
    .ok ⟨location, some (.file more mode)⟩ :=
  Machine.resolve_put h.node_of_file.1 rfl h.keepsWays h.at?_put

theorem isDir_eq_false : ∀ node ∈ m.root.at? location, node.isDir = false := by
  intro node hmem
  rcases h.node_of_file.2 with ⟨hnode, -⟩ | ⟨hnone, -⟩
  · exact Option.some.inj (hnode.symm.trans hmem) ▸ rfl
  · exact nomatch hnone.symm.trans hmem

theorem does_rewrite (hcwd : m.HasCwd) : FileAction.Does (rewrite path more change) m (.ok ())
    (m.put location (some (.file (change content) mode))) := by
  have hslash := getLast?_ne_slash h.node_of_file.1 h.isDir_eq_false hcwd
  have hopen : m.openForWriting path = .ok (.file location content mode) := by
    cases h with
    | existing h hwrite =>
      simp only [openForWriting, hslash, Bool.false_and, Bool.false_eq_true, if_false, h]
      exact if_pos hwrite
    | new h hchange =>
      simp only [openForWriting, hslash, Bool.false_and, Bool.false_eq_true, if_false, h]
      exact if_pos hchange
  rw [rewrite, FileAction.does_get_bind_iff, hopen]
  exact FileAction.does_set_iff.2 ⟨rfl, rfl⟩

theorem does_saveFile (hcwd : m.HasCwd) (text : String) :
    FileAction.Does (saveFile path text) m (.ok ())
      (m.put location (some (.file (Bytes.ofString text) mode))) :=
  (does_saveFile_iff h.node_of_file.1 h.isDir_eq_false hcwd text).2 (h.does_rewrite hcwd)

end Opens

theorem exists_opens_of_rewrite (h : FileAction.Does (rewrite path more change) m (.ok ()) after) :
    (∃ location content mode, m.Opens path (.file location content mode) ∧
      after = m.put location (some (.file (change content) mode))) ∨
    ∃ special, m.Opens path (.special special) ∧ after = m := by
  rw [rewrite, FileAction.does_get_bind_iff] at h
  split at h
  · next location content mode hopen =>
    obtain ⟨-, rfl⟩ := FileAction.does_set_iff.1 h
    exact Or.inl ⟨location, content, mode, opens_of_openForWriting hopen, rfl⟩
  · next special hopen =>
    cases hfeed : feed special more with
    | ok =>
      rw [hfeed] at h
      obtain ⟨-, rfl⟩ := FileAction.does_pure_iff.1 h
      exact Or.inr ⟨special, opens_of_openForWriting hopen, rfl⟩
    | error fault =>
      rw [hfeed] at h
      exact absurd h FileAction.not_does_throw_ok
  · exact absurd h FileAction.not_does_throw_ok

theorem content_of_writeFile (h : FileAction.Does (writeFile path more) m (.ok ()) after)
    (hfile : after.resolve path = .ok ⟨location, some (.file content mode)⟩) : content = more := by
  rcases exists_opens_of_rewrite h with ⟨_, _, _, hopens, rfl⟩ | ⟨special, hopens, rfl⟩
  · have hnode := Except.ok.inj (hopens.resolve_put.symm.trans hfile)
    exact (Node.file.inj (Option.some.inj (congrArg Place.node hnode))).1.symm
  · cases hopens with
    | special hspecial =>
      exact nomatch congrArg Place.node (Except.ok.inj (hspecial.symm.trans hfile))

theorem does_writeFile_denied (h : m.resolve path = .ok ⟨location, some (.file content mode)⟩)
    (hwrite : Right.write.isIn mode = false) (hcwd : m.HasCwd) :
    FileAction.Does (writeFile path more) m (.error .denied) m := by
  have hslash := getLast?_ne_slash h (fun _ hnode => Option.some.inj hnode ▸ rfl) hcwd
  have hopen : m.openForWriting path = .error .denied := by
    simp only [openForWriting, hslash, Bool.false_and, Bool.false_eq_true, if_false, h]
    exact if_neg (by simp [hwrite])
  rw [writeFile, rewrite, FileAction.does_get_bind_iff, hopen]
  exact FileAction.does_throw_iff.2 ⟨rfl, rfl⟩

theorem does_saveFile_denied (h : m.resolve path = .ok ⟨location, some (.file content mode)⟩)
    (hwrite : Right.write.isIn mode = false) (hcwd : m.HasCwd) (text : String) :
    FileAction.Does (saveFile path text) m (.error .denied) m :=
  (does_saveFile_iff h (fun _ hnode => Option.some.inj hnode ▸ rfl) hcwd text).2
    (does_writeFile_denied h hwrite hcwd)

theorem readText_of_resolve (h : m.resolve path = .ok ⟨location, some (.file content mode)⟩) :
    m.readText path = (Node.file content mode).text := by
  have hopen : m.open? path = .ok (.file content mode) := by
    rw [open?, h]
    rfl
  rw [readText, hopen]
  rfl

theorem node?_of_resolve {node : Node} (h : m.resolve path = .ok ⟨location, some node⟩) :
    m.node? path = some node := by
  rw [node?, open?, h]
  rfl

theorem node?_of_missing (h : m.resolve path = .ok ⟨location, none⟩) : m.node? path = none := by
  rw [node?, open?, h]
  rfl

theorem does_feed_nil {special : Special} :
    FileAction.Does (MonadExcept.ofExcept (feed special []) : FileAction Unit) m (.ok ()) m := by
  have hfeed : feed special [] = .ok () := if_neg fun h => h.2 rfl
  rw [hfeed]
  exact FileAction.does_pure_iff.2 ⟨rfl, rfl⟩

theorem grows_of_appendFile_nil {result : Except FileFault Unit}
    (h : FileAction.Does (appendFile path []) m result after) : m.Grows after := by
  rw [appendFile, rewrite, FileAction.does_get_bind_iff] at h
  split at h
  · next location content mode hopen =>
    obtain ⟨-, rfl⟩ := FileAction.does_set_iff.1 h
    rw [List.append_nil]
    rcases (opens_of_openForWriting hopen).node_of_file.2 with ⟨hnode, -⟩ | ⟨hnone, -⟩
    · rw [put, put_eq_self hnode]
      exact .refl m
    · exact grows_put hnone rfl
  · obtain ⟨-, rfl⟩ := does_feed_nil.unique h
    exact .refl m
  · exact grows_of_throw h

theorem HasCwd.of_writeFile (hcwd : m.HasCwd)
    (h : FileAction.Does (writeFile path more) m (.ok ()) after) : after.HasCwd := by
  rcases exists_opens_of_rewrite h with ⟨_, _, _, hopens, rfl⟩ | ⟨-, -, rfl⟩
  · exact hcwd.of_ways hopens.keepsWays rfl
  · exact hcwd

theorem exists_writeFile_of_saveFile {text : String}
    (h : FileAction.Does (saveFile path text) m (.ok ()) after) : ∃ between, m.Grows between ∧
      FileAction.Does (writeFile path (Bytes.ofString text)) between (.ok ()) after := by
  rw [saveFile] at h
  split at h
  · obtain ⟨_, between, hmake, hwrite⟩ := h.exists_of_bind
    exact ⟨between, grows_of_makeDirs hmake, hwrite⟩
  · exact ⟨m, .refl m, h⟩

theorem does_writeFile_again (h : m.resolve path = .ok ⟨location, some (.file content mode)⟩)
    (hwrite : Right.write.isIn mode = true) (hcwd : m.HasCwd) :
    FileAction.Does (writeFile path content) m (.ok ()) m := by
  have hdone : FileAction.Does (writeFile path content) m (.ok ())
      (m.put location (some (.file content mode))) := (Opens.existing h hwrite).does_rewrite hcwd
  rwa [put, put_eq_self (node_of_resolve h).symm] at hdone

end MergeTrial.Machine
