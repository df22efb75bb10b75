import Mathlib.Data.List.Pairwise
import MergeTrial.Proofs.Corpus.Layout
import MergeTrial.Proofs.Text.Encoding

/-! The loading of a single scenario: it succeeds exactly on a directory whose files fill the roles,
and takes their contents as they are. -/

namespace MergeTrial

theorem Node.text_file_eq_ok_iff {content : Bytes} {mode : Nat} {text : String}
    (hplain : (Node.file content mode).Plain) :
    (Node.file content mode).text = .ok text ↔ content = Bytes.ofString text := by
  cases hplain with
  | file hread =>
    have hcontent : (Node.file content mode).content = .ok content := if_pos hread
    rw [← Bytes.text?_eq_some_iff, Node.text, hcontent]
    simp only [bind, Except.bind]
    cases content.text? with
    | none => simp [throw, throwThe, MonadExceptOf.throw]
    | some other => simp [pure, Except.pure]

namespace Corpus

namespace Artifact

theorem ofStem?_eq_some_iff {stem : Bytes} {role : Role} :
    ofStem? stem = some role ↔ ∃ s ∈ stems role, stem = Bytes.ofString s := by
  constructor
  · intro h
    unfold ofStem? at h
    split at h
    · next hstem =>
      obtain rfl := Option.some.inj h
      exact hstem.elim (fun h => ⟨_, by simp [stems], h⟩) fun h => ⟨_, by simp [stems], h⟩
    · split at h
      · next hstem => exact Option.some.inj h ▸ ⟨_, List.mem_singleton_self _, hstem⟩
      · split at h
        · next hstem => exact Option.some.inj h ▸ ⟨_, List.mem_singleton_self _, hstem⟩
        · split at h
          · next hstem => exact Option.some.inj h ▸ ⟨_, List.mem_singleton_self _, hstem⟩
          · exact nomatch h
  · rintro ⟨s, hs, rfl⟩
    cases role <;> simp only [stems, List.mem_cons, List.not_mem_nil, or_false] at hs
    · rcases hs with rfl | rfl <;> simp [ofStem?]
    all_goals
      subst hs
      simp [ofStem?]

theorem not_dot_mem_of_mem_stems {role : Role} {s : String} (hs : s ∈ stems role) :
    '.' ∉ s.toList := by
  cases role <;> simp only [stems, List.mem_cons, List.not_mem_nil, or_false] at hs
  · rcases hs with rfl | rfl <;> decide
  all_goals
    subst hs
    decide

theorem ofStem?_stem_iff {name : Bytes} {role : Role} :
    ofStem? (stem name) = some role ↔ Fits role name := by
  rw [ofStem?_eq_some_iff]
  refine exists_congr fun s => and_congr_right fun hs => ?_
  constructor
  · intro hstem
    refine ⟨name.dropWhile (· != Path.dot), ?_, ?_⟩
    · rw [← hstem, stem, List.takeWhile_append_dropWhile]
    · cases hrest : name.dropWhile (· != Path.dot) with
      | nil => exact Or.inl rfl
      | cons b tail =>
        have hdot := List.head?_dropWhile_not (· != Path.dot) name
        rw [hrest] at hdot
        exact Or.inr ⟨tail, by simpa using hdot⟩
  · rintro ⟨rest, rfl, hrest⟩
    rw [stem, List.takeWhile_append_of_pos
      (Bytes.not_dot_of_mem_ofString (not_dot_mem_of_mem_stems hs))]
    rcases hrest with rfl | ⟨tail, rfl⟩
    · exact List.append_nil _
    · exact List.append_nil _

theorem extension?_eq (name : Bytes) : extension? name = name.text?.bind afterDot? := by
  rw [extension?]
  cases htext : name.text? with
  | none => rfl
  | some text =>
    obtain rfl := Bytes.text?_eq_some_iff.1 htext
    have hdrop := Bytes.dropWhile_ofString text.toList
    rw [String.ofList_toList] at hdrop
    have hguard : (guard ((some text).isSome = true) : Option Unit) = some () := rfl
    rw [hguard, hdrop, Option.bind_eq_bind, Option.bind_some, Option.bind_some, afterDot?]
    cases hrest : text.toList.dropWhile (· != '.') with
    | nil => rfl
    | cons c rest =>
      have hc : (c != '.') = false := by
        have hhead := List.head?_dropWhile_not (· != '.') text.toList
        rw [hrest] at hhead
        simpa using hhead
      obtain rfl : c = '.' := by simpa using hc
      rw [Bytes.ofString_dot_cons]
      exact Bytes.text?_ofString _

theorem role?_eq_some_iff {entry : Bytes × Node} {role : Role} :
    role? entry = some role ↔ entry.2.isFile = true ∧ Fits role entry.1 := by
  rw [role?]
  split
  · next hfile => rw [ofStem?_stem_iff, and_iff_right hfile]
  · next hfile => exact iff_of_false nofun fun h => hfile h.1

end Artifact

def Clash (a b : Bytes × Node) : Prop :=
  ∃ role, Artifact.role? a = some role ∧ Artifact.role? b = some role

instance : Std.Symm fun a b => ¬Clash a b :=
  ⟨fun _ _ h ⟨role, hb, ha⟩ => h ⟨role, ha, hb⟩⟩

theorem firstClash_eq_none_iff {seen entries : List (Bytes × Node)} :
    firstClash seen entries = none ↔
      entries.Pairwise (fun a b => ¬Clash a b) ∧ ∀ a ∈ seen, ∀ b ∈ entries, ¬Clash a b := by
  induction entries generalizing seen with
  | nil => simp [firstClash]
  | cons entry rest ih =>
    simp only [List.pairwise_cons, List.forall_mem_cons]
    cases hrole : Artifact.role? entry with
    | none =>
      have hfree : ∀ a, ¬Clash entry a ∧ ¬Clash a entry := fun a =>
        ⟨fun ⟨_, h, _⟩ => Option.some_ne_none _ (h.symm.trans hrole),
          fun ⟨_, _, h⟩ => Option.some_ne_none _ (h.symm.trans hrole)⟩
      simp only [firstClash, hrole, ih, hfree, not_false_eq_true, implies_true, true_and]
    | some role =>
      have hclash : ∀ a, Clash a entry ↔ Artifact.role? a = some role := fun a =>
        ⟨fun ⟨_, ha, h⟩ => by rw [ha, ← h, hrole], fun h => ⟨role, h, hrole⟩⟩
      cases hfind : seen.find? fun earlier => Artifact.role? earlier == some role with
      | some earlier =>
        simp only [firstClash, hrole, hfind]
        refine iff_of_false nofun fun h => ?_
        have hearlier := List.find?_some hfind
        exact (h.2 earlier (List.mem_of_find?_eq_some hfind)).1
          ((hclash earlier).2 (eq_of_beq hearlier))
      | none =>
        have hnone := List.find?_eq_none.1 hfind
        simp only [firstClash, hrole, hfind, ih, List.forall_mem_cons]
        constructor
        · rintro ⟨hrest, hentry, hseen⟩
          refine ⟨⟨hentry, hrest⟩, fun a ha => ⟨fun h => ?_, hseen a ha⟩⟩
          exact hnone a ha (beq_iff_eq.2 ((hclash a).1 h))
        · rintro ⟨⟨hentry, hrest⟩, hseen⟩
          exact ⟨hrest, hentry, fun a ha => (hseen a ha).2⟩

theorem readArtifact_eq_ok_iff {dir : Path} {entry : Bytes × Node} {text : String} :
    readArtifact dir entry = .ok text ↔ entry.2.text = .ok text := by
  rw [readArtifact]
  cases entry.2.text <;> simp

section
variable {entries : List (Bytes × Node)} (hplain : ∀ entry ∈ entries, entry.2.Plain)
include hplain

theorem role?_eq_some_iff_mem {entry : Bytes × Node} (hentry : entry ∈ entries) {role : Role} :
    Artifact.role? entry = some role ↔
      ∃ content mode, entry.2 = .file content mode ∧ (entry.1, content) ∈ filesOf entries role := by
  rw [Artifact.role?_eq_some_iff]
  obtain ⟨name, node⟩ := entry
  constructor
  · rintro ⟨hfile, hfits⟩
    cases hplain _ hentry with
    | file => exact ⟨_, _, rfl, _, hentry, hfits⟩
    | dir => exact nomatch hfile
  · rintro ⟨content, mode, hnode, _, _, hfits⟩
    refine ⟨?_, hfits⟩
    simp only at hnode
    rw [hnode]
    rfl

theorem pairwise_not_clash_iff (hnames : (entries.map Prod.fst).Nodup) :
    entries.Pairwise (fun a b => ¬Clash a b) ↔
      ∀ role, Set.Subsingleton (filesOf entries role) := by
  constructor
  · intro hpairwise role file hfile file' hfile'
    obtain ⟨mode, hmem, hfits⟩ := hfile
    obtain ⟨mode', hmem', hfits'⟩ := hfile'
    by_contra hne
    have hentries : (file.1, Node.file file.2 mode) ≠ (file'.1, Node.file file'.2 mode') := by
      intro heq
      obtain ⟨hname, hcontent⟩ := Prod.mk.inj heq
      exact hne (Prod.ext hname (Node.file.inj hcontent).1)
    refine hpairwise.forall hmem hmem' hentries ⟨role, ?_, ?_⟩
    · exact Artifact.role?_eq_some_iff.2 ⟨rfl, hfits⟩
    · exact Artifact.role?_eq_some_iff.2 ⟨rfl, hfits'⟩
  · intro hsole
    refine (List.pairwise_map.1 hnames).imp_of_mem fun {a b} ha hb hne => ?_
    rintro ⟨role, hrole, hrole'⟩
    obtain ⟨content, _, -, hfile⟩ := (role?_eq_some_iff_mem hplain ha).1 hrole
    obtain ⟨content', _, -, hfile'⟩ := (role?_eq_some_iff_mem hplain hb).1 hrole'
    exact hne (Prod.mk.inj (hsole role hfile hfile')).1

theorem find_read_iff (hsole : ∀ role, Set.Subsingleton (filesOf entries role)) (dir : Path)
    {role : Role} {name : Bytes} {text : String} :
    (∃ entry, (entries.find? fun entry => Artifact.role? entry == some role) = some entry ∧
      entry.1 = name ∧ readArtifact dir entry = .ok text) ↔
      filesOf entries role = {(name, Bytes.ofString text)} := by
  constructor
  · rintro ⟨entry, hfind, rfl, hread⟩
    have hmem := List.mem_of_find?_eq_some hfind
    have hrole : Artifact.role? entry = some role := by simpa using List.find?_some hfind
    obtain ⟨content, mode, hnode, hfile⟩ := (role?_eq_some_iff_mem hplain hmem).1 hrole
    rw [readArtifact_eq_ok_iff, hnode,
      Node.text_file_eq_ok_iff (hnode ▸ hplain entry hmem)] at hread
    exact (hsole role).eq_singleton_of_mem (hread ▸ hfile)
  · intro hfiles
    obtain ⟨mode, hmem, hfits⟩ : (name, Bytes.ofString text) ∈ filesOf entries role := hfiles ▸ rfl
    have hrole : Artifact.role? (name, Node.file (Bytes.ofString text) mode) = some role :=
      Artifact.role?_eq_some_iff.2 ⟨rfl, hfits⟩
    cases hfind : entries.find? fun entry => Artifact.role? entry == some role with
    | none => exact absurd (beq_iff_eq.2 hrole) (List.find?_eq_none.1 hfind _ hmem)
    | some entry =>
      have hentry := List.mem_of_find?_eq_some hfind
      have hrole' : Artifact.role? entry = some role := by simpa using List.find?_some hfind
      obtain ⟨content, _, hnode, hfile⟩ := (role?_eq_some_iff_mem hplain hentry).1 hrole'
      obtain ⟨rfl, rfl⟩ := Prod.mk.inj (Set.mem_singleton_iff.1 (hfiles ▸ hfile))
      refine ⟨entry, rfl, rfl, ?_⟩
      rw [readArtifact_eq_ok_iff, hnode,
        Node.text_file_eq_ok_iff (hnode ▸ hplain entry hentry)]

theorem find_eq_none_iff {role : Role} :
    (entries.find? fun entry => Artifact.role? entry == some role) = none ↔
      filesOf entries role = ∅ := by
  rw [List.find?_eq_none, Set.eq_empty_iff_forall_notMem]
  constructor
  · rintro hnone file ⟨mode, hmem, hfits⟩
    exact hnone _ hmem (beq_iff_eq.2 (Artifact.role?_eq_some_iff.2 ⟨rfl, hfits⟩))
  · intro hempty entry hentry hrole
    obtain ⟨content, _, -, hfile⟩ :=
      (role?_eq_some_iff_mem hplain hentry).1 (eq_of_beq hrole)
    exact hempty _ hfile

theorem find_mapM_read_iff (hsole : ∀ role, Set.Subsingleton (filesOf entries role)) (dir : Path)
    {role : Role} {text? : Option String} :
    (entries.find? fun entry => Artifact.role? entry == some role).mapM (readArtifact dir) =
        .ok text? ↔
      match text? with
      | none => filesOf entries role = ∅
      | some text => ∃ name, filesOf entries role = {(name, Bytes.ofString text)} := by
  cases text? with
  | none =>
    rw [← find_eq_none_iff hplain]
    cases entries.find? fun entry => Artifact.role? entry == some role with
    | none => exact iff_of_true rfl rfl
    | some entry =>
      refine iff_of_false (fun h => ?_) nofun
      obtain ⟨text, -, h⟩ := Outcome.bind_eq_ok.1 h
      exact nomatch h
  | some text =>
    simp only [← find_read_iff hplain hsole dir]
    cases entries.find? fun entry => Artifact.role? entry == some role with
    | none => exact iff_of_false nofun fun ⟨_, _, h, _⟩ => nomatch h
    | some entry =>
      constructor
      · intro h
        obtain ⟨text', htext, h⟩ := Outcome.bind_eq_ok.1 h
        obtain rfl := Option.some.inj (Except.ok.inj h)
        exact ⟨_, entry, rfl, rfl, htext⟩
      · rintro ⟨_, entry', hentry, -, htext⟩
        obtain rfl := Option.some.inj hentry
        exact Outcome.bind_eq_ok.2 ⟨text, htext, rfl⟩

end

theorem required_eq_ok_iff {scenario : String} {entries : List (Bytes × Node)} {role : Role}
    {entry : Bytes × Node} : required scenario entries role = .ok entry ↔
      (entries.find? fun entry => Artifact.role? entry == some role) = some entry := by
  rw [required]
  cases entries.find? fun entry => Artifact.role? entry == some role <;> simp

theorem MadeOf.subsingleton {files : RoleFiles} {s : Scenario} (h : MadeOf files s) (role : Role) :
    Set.Subsingleton (files role) := by
  have hsingle : ∀ {file}, files role = {file} → Set.Subsingleton (files role) :=
    fun h => h ▸ Set.subsingleton_singleton
  cases role with
  | ancestor => exact hsingle h.ancestor.choose_spec.1
  | left => exact hsingle h.left.choose_spec
  | right => exact hsingle h.right.choose_spec
  | expected =>
    have hexpected := h.expected
    split at hexpected
    · exact hexpected ▸ Set.subsingleton_empty
    · exact hsingle hexpected.choose_spec

theorem name_label_of_loadScenario {entries : List (Bytes × Node)} {dir : Path} {name : String}
    {label : Label} {s : Scenario}
    (h : loadScenario dir name label entries = .ok s) : s.name = name ∧ s.label = label := by
  unfold loadScenario at h
  split at h
  · exact nomatch h
  · obtain ⟨_, -, h⟩ := Outcome.bind_eq_ok.1 h
    obtain ⟨_, -, h⟩ := Outcome.bind_eq_ok.1 h
    obtain ⟨_, -, h⟩ := Outcome.bind_eq_ok.1 h
    obtain ⟨_, -, h⟩ := Outcome.bind_eq_ok.1 h
    obtain ⟨_, -, h⟩ := Outcome.bind_eq_ok.1 h
    obtain ⟨_, -, h⟩ := Outcome.bind_eq_ok.1 h
    obtain ⟨_, -, h⟩ := Outcome.bind_eq_ok.1 h
    exact Except.ok.inj h ▸ ⟨rfl, rfl⟩

theorem loadScenario_eq_ok_iff {entries : List (Bytes × Node)}
    (hplain : ∀ entry ∈ entries, entry.2.Plain) (hnames : (entries.map Prod.fst).Nodup)
    {dir : Path} {name : String} {label : Label} {s : Scenario} :
    loadScenario dir name label entries = .ok s ↔
      s.name = name ∧ s.label = label ∧ MadeOf (filesOf entries) s := by
  cases hclash : firstClash [] entries with
  | some clash =>
    -- a scenario is made of at most one file in each role, so not of these
    refine iff_of_false (fun h => ?_) fun h => ?_
    · rw [loadScenario, hclash] at h
      exact nomatch h
    · have hnone := firstClash_eq_none_iff.2
        ⟨(pairwise_not_clash_iff hplain hnames).2 h.2.2.subsingleton,
          fun _ h => absurd h List.not_mem_nil⟩
      exact nomatch hclash.symm.trans hnone
  | none =>
    have hsole := (pairwise_not_clash_iff hplain hnames).1 (firstClash_eq_none_iff.1 hclash).1
    have hread := @find_read_iff entries hplain hsole dir
    rw [loadScenario, hclash]
    constructor
    · intro h
      obtain ⟨ancestor, hancestor, h⟩ := Outcome.bind_eq_ok.1 h
      obtain ⟨left, hleft, h⟩ := Outcome.bind_eq_ok.1 h
      obtain ⟨right, hright, h⟩ := Outcome.bind_eq_ok.1 h
      obtain ⟨ancestorText, hancestorText, h⟩ := Outcome.bind_eq_ok.1 h
      obtain ⟨leftText, hleftText, h⟩ := Outcome.bind_eq_ok.1 h
      obtain ⟨rightText, hrightText, h⟩ := Outcome.bind_eq_ok.1 h
      obtain ⟨expectedText, hexpectedText, h⟩ := Outcome.bind_eq_ok.1 h
      obtain rfl := Except.ok.inj h
      refine ⟨rfl, rfl, ⟨_, hread.1 ⟨ancestor, required_eq_ok_iff.1 hancestor, rfl, hancestorText⟩,
        Artifact.extension?_eq _⟩, ⟨_, hread.1 ⟨left, required_eq_ok_iff.1 hleft, rfl, hleftText⟩⟩,
        ⟨_, hread.1 ⟨right, required_eq_ok_iff.1 hright, rfl, hrightText⟩⟩, ?_⟩
      exact (find_mapM_read_iff hplain hsole dir).1 hexpectedText
    · rintro ⟨rfl, rfl, h⟩
      obtain ⟨_, hfiles, hextension⟩ := h.ancestor
      obtain ⟨ancestor, hancestor, rfl, hancestorText⟩ := hread.2 hfiles
      obtain ⟨left, hleft, -, hleftText⟩ := hread.2 h.left.choose_spec
      obtain ⟨right, hright, -, hrightText⟩ := hread.2 h.right.choose_spec
      have hexpected := (find_mapM_read_iff hplain hsole dir).2 h.expected
      refine Outcome.bind_eq_ok.2 ⟨ancestor, required_eq_ok_iff.2 hancestor, ?_⟩
      refine Outcome.bind_eq_ok.2 ⟨left, required_eq_ok_iff.2 hleft, ?_⟩
      refine Outcome.bind_eq_ok.2 ⟨right, required_eq_ok_iff.2 hright, ?_⟩
      refine Outcome.bind_eq_ok.2 ⟨s.ancestor, hancestorText, ?_⟩
      refine Outcome.bind_eq_ok.2 ⟨s.left, hleftText, ?_⟩
      refine Outcome.bind_eq_ok.2 ⟨s.right, hrightText, ?_⟩
      refine Outcome.bind_eq_ok.2 ⟨s.expected, hexpected, ?_⟩
      rw [Artifact.extension?_eq, ← hextension]
      rfl

end Corpus
end MergeTrial
