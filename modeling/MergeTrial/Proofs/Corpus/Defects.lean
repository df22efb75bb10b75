import Mathlib.Data.Sym.Sym2
import MergeTrial.Proofs.Corpus.Loading
import MergeTrial.Proofs.FileTree.Relisting

/-! What can be wrong with the tree of a corpus, and which defect counts before which. Nothing here
depends on how a corpus is loaded, nor on the order in which directories list their entries. That a
directory may not be listed is a defect as well: of the root, after those of the labels, and of a
scenario, before those of its files. -/

namespace MergeTrial

def Role.rank : Role → Nat
  | .ancestor => 0
  | .left => 1
  | .right => 2
  | .expected => 3

namespace Corpus

/-- What is looked at in the directory of a scenario. -/
inductive Check
  | name
  | noLabel
  | badLabel
  | listing
  | clash
  | missing (role : Role)
  | text (role : Role)

def Check.rank : Check → Nat
  | .name => 0
  | .noLabel => 1
  | .badLabel => 2
  | .listing => 3
  | .clash => 4
  | .missing role => 5 + role.rank
  | .text role => 9 + role.rank

theorem Check.eq_of_rank_eq {one other : Check} (h : one.rank = other.rank) : one = other := by
  have hrank : ∀ role : Role, role.rank < 4 := fun role => by cases role <;> decide
  have hsame : ∀ role role' : Role, role.rank = role'.rank → role = role' := by
    intro role role'
    cases role <;> cases role' <;> first | exact fun _ => rfl | exact nofun
  cases one <;> cases other <;> simp only [rank] at h <;>
    first
    | rfl
    | exact absurd h (by decide)
    | exact congrArg _ (hsame _ _ (Nat.add_left_cancel h))
    | (next role => have := hrank role; omega)
    | (next role role' => have := hrank role; have := hrank role'; omega)

theorem Check.rank_lt (check : Check) : check.rank < 13 := by
  cases check <;> first | decide | (next role => cases role <;> decide)

/-- Where the tree of a corpus can have a defect. -/
inductive Stage
  | root
  | labels
  | listing
  | dir (name : Bytes) (check : Check)
  | orphan (key : String)

namespace Stage

def part : Stage → Nat
  | root => 0
  | labels => 1
  | listing => 2
  | dir .. => 3
  | orphan _ => 4

/-- Directories count in ascending order of their names, each with its checks in their order, and
labels without a directory in ascending order after all of them. -/
inductive Before : Stage → Stage → Prop
  | part {s t} : s.part < t.part → Before s t
  | name {name name' check check'} : name < name' → Before (.dir name check) (.dir name' check')
  | check {name check check'} : check.rank < check'.rank →
    Before (.dir name check) (.dir name check')
  | key {key key'} : key < key' → Before (.orphan key) (.orphan key')

theorem eq_of_not_before {s t : Stage} (h : ¬Before s t) (h' : ¬Before t s) : s = t := by
  have hpart : s.part = t.part :=
    Nat.le_antisymm (Nat.not_lt.1 fun hlt => h' (.part hlt)) (Nat.not_lt.1 fun hlt => h (.part hlt))
  cases s <;> cases t <;> try exact absurd hpart (Nat.ne_of_beq_eq_false rfl)
  case dir.dir name check name' check' =>
    obtain rfl : name = name' :=
      List.le_antisymm (fun hlt => h' (.name hlt)) (fun hlt => h (.name hlt))
    have hrank : check.rank = check'.rank :=
      Nat.le_antisymm (Nat.not_lt.1 fun hlt => h' (.check hlt))
        (Nat.not_lt.1 fun hlt => h (.check hlt))
    rw [Check.eq_of_rank_eq hrank]
  case orphan.orphan key key' =>
    obtain rfl : key = key' :=
      String.le_antisymm (fun hlt => h' (.key hlt)) (fun hlt => h (.key hlt))
    rfl
  all_goals rfl

theorem Before.irrefl (s : Stage) : ¬Before s s := by
  rintro (hlt | hlt | hlt | hlt)
  · exact Nat.lt_irrefl _ hlt
  · exact List.lt_irrefl _ hlt
  · exact Nat.lt_irrefl _ hlt
  · exact String.lt_irrefl _ hlt

theorem Before.part_le {s t : Stage} (h : Before s t) : s.part ≤ t.part := by
  cases h with
  | part hlt => exact Nat.le_of_lt hlt
  | _ => exact Nat.le_refl _

theorem before_dir_iff {name name' : Bytes} {check check' : Check} :
    Before (.dir name check) (.dir name' check') ↔
      name < name' ∨ name = name' ∧ check.rank < check'.rank := by
  constructor
  · rintro (hlt | hlt | hlt | hlt)
    · exact absurd hlt (Nat.lt_irrefl _)
    · exact Or.inl hlt
    · exact Or.inr ⟨rfl, hlt⟩
  · rintro (hlt | ⟨rfl, hlt⟩)
    · exact .name hlt
    · exact .check hlt

theorem before_orphan_iff {key key' : String} :
    Before (.orphan key) (.orphan key') ↔ key < key' := by
  constructor
  · rintro (hlt | hlt | hlt | hlt)
    · exact absurd hlt (Nat.lt_irrefl _)
    · exact hlt
  · exact .key

end Stage

def shown (dir : Path) (name : Bytes) : String := Bytes.display (dir.join name)

section
variable (path : Path) (mode : Nat) (entries : List (Bytes × Node))

def LabelText (text : String) : Prop :=
  Right.execute.isIn mode = true ∧
    ∃ node, (Bytes.ofString labelFile, node) ∈ entries ∧ node.text = .ok text

def Labelled (labels : RecordFile) : Prop :=
  ∃ text records, LabelText mode entries text ∧
    (Json.read? text).bind RecordFile.entries? = some records ∧
    (records.map Prod.fst).Nodup ∧ labels = .ofList records

inductive LabelDefect : Fault → Prop
  | denied : Right.execute.isIn mode = false →
    LabelDefect (.unreadable (shown path (Bytes.ofString labelFile)) .denied)
  | missing : Right.execute.isIn mode = true →
    Bytes.ofString labelFile ∉ entries.map Prod.fst →
    LabelDefect (.unreadable (shown path (Bytes.ofString labelFile)) .missing)
  | unreadable {node cause} : Right.execute.isIn mode = true →
    (Bytes.ofString labelFile, node) ∈ entries → node.text = .error cause →
    LabelDefect (.unreadable (shown path (Bytes.ofString labelFile)) cause)
  | malformed {text} : LabelText mode entries text →
    (Json.read? text).bind RecordFile.entries? = none →
    LabelDefect (.malformedRecords (shown path (Bytes.ofString labelFile)))
  | repeated {text records before name after} : LabelText mode entries text →
    (Json.read? text).bind RecordFile.entries? = some records →
    records.map Prod.fst = before ++ name :: after → before.Nodup → name ∈ before →
    LabelDefect (.repeatedScenario name)

end

/-- What is known of the entries of a directory: nothing, unless it may be searched. -/
def known (mode : Nat) (inner : List (Bytes × Node)) : List (Bytes × Node) :=
  if Right.execute.isIn mode then inner else []

theorem mem_known_iff {mode : Nat} {inner : List (Bytes × Node)} {entry : Bytes × Node} :
    entry ∈ known mode inner ↔ Right.execute.isIn mode = true ∧ entry ∈ inner := by
  rw [known]
  split <;> simp [*]

structure Plays (entries : List (Bytes × Node)) (role : Role) (entry : Bytes × Node) : Prop where
  mem : entry ∈ entries
  isFile : entry.2.isFile = true
  fits : Fits role entry.1

inductive ArtifactDefect (dir : Path) (name : String) (entries : List (Bytes × Node)) :
    Check → Fault → Prop
  | clash {role a b x y} : Plays entries role (a, x) → Plays entries role (b, y) → a ≠ b →
    shown dir a ≤ shown dir b →
    ArtifactDefect dir name entries .clash
      (.repeatedArtifact name role (shown dir a) (shown dir b))
  | missing {role} : role ≠ .expected → (∀ entry, ¬Plays entries role entry) →
    ArtifactDefect dir name entries (.missing role) (.missingArtifact name role.name)
  | text {role file node cause} : Plays entries role (file, node) → node.text = .error cause →
    ArtifactDefect dir name entries (.text role) (.unreadable (shown dir file) cause)

inductive DirDefect (path : Path) (labels : RecordFile) (dir : Bytes) (mode : Nat)
    (inner : List (Bytes × Node)) : Check → Fault → Prop
  | name : dir.text? = none →
    DirDefect path labels dir mode inner .name (.unreadableName (shown path dir))
  | noLabel {name} : dir = Bytes.ofString name →
    (∀ record, labels.get? name = some record → record.expected = none) →
    DirDefect path labels dir mode inner .noLabel (.missingLabel name)
  | badLabel {name record text} : dir = Bytes.ofString name → labels.get? name = some record →
    record.expected = some text → (∀ label : Label, text ≠ label.name) →
    DirDefect path labels dir mode inner .badLabel (.invalidLabel name text)
  | listing : Right.read.isIn mode = false →
    DirDefect path labels dir mode inner .listing (.unreadable (shown path dir) .denied)
  | artifacts {name check fault} : dir = Bytes.ofString name →
    ArtifactDefect (path.join dir) name (known mode inner) check fault →
    DirDefect path labels dir mode inner check fault

/-- What can be wrong with a tree of which a corpus is to be loaded. -/
inductive Defect (path : Path) : Option Node → Stage → Fault → Prop
  | root {root} : (∀ mode entries, root ≠ some (.dir mode entries)) →
    Defect path root .root (.corpusMissing (Bytes.display path))
  | labels {mode entries fault} : LabelDefect path mode entries fault →
    Defect path (some (.dir mode entries)) .labels fault
  | listing {mode entries} : Right.read.isIn mode = false →
    Defect path (some (.dir mode entries)) .listing (.unreadable (Bytes.display path) .denied)
  | dir {mode entries labels name innerMode inner check fault} :
    Labelled mode entries labels → name.head? ≠ some Path.dot →
    (name, .dir innerMode inner) ∈ entries →
    DirDefect path labels name innerMode inner check fault →
    Defect path (some (.dir mode entries)) (.dir name check) fault
  | orphan {mode entries labels key} : Labelled mode entries labels →
    key ∈ NameMap.keys labels → (∀ inner, ¬HoldsDir entries (Bytes.ofString key) inner) →
    Defect path (some (.dir mode entries)) (.orphan key) (.orphanLabel key)

/-! In another order of listing, the defects are the same. -/

section
variable {path : Path} {mode : Nat} {entries entries' : List (Bytes × Node)}
  (h : Node.Relisted (.dir mode entries) (.dir mode entries'))
include h

theorem LabelText.relisted {text : String} (htext : LabelText mode entries text) :
    LabelText mode entries' text := by
  obtain ⟨hsearch, node, hmem, htext⟩ := htext
  obtain ⟨node', hmem', hnode⟩ := h.exists_entry hmem
  exact ⟨hsearch, node', hmem', hnode.text_eq ▸ htext⟩

theorem Labelled.relisted {labels : RecordFile} (hlabels : Labelled mode entries labels) :
    Labelled mode entries' labels := by
  obtain ⟨text, records, htext, hrecords⟩ := hlabels
  exact ⟨text, records, htext.relisted h, hrecords⟩

theorem LabelDefect.relisted {fault : Fault} (hdefect : LabelDefect path mode entries fault) :
    LabelDefect path mode entries' fault := by
  cases hdefect with
  | denied hsearch => exact .denied hsearch
  | missing hsearch hnone =>
    refine .missing hsearch fun hmem => hnone ?_
    obtain ⟨⟨name, node'⟩, hentry, rfl⟩ := List.mem_map.1 hmem
    obtain ⟨node, hnode, -⟩ := h.symm.exists_entry hentry
    exact List.mem_map.2 ⟨_, hnode, rfl⟩
  | unreadable hsearch hmem htext =>
    obtain ⟨node', hmem', hnode⟩ := h.exists_entry hmem
    exact .unreadable hsearch hmem' (hnode.text_eq ▸ htext)
  | malformed htext hdecode => exact .malformed (htext.relisted h) hdecode
  | repeated htext hdecode hsplit hnodup hmem =>
    exact .repeated (htext.relisted h) hdecode hsplit hnodup hmem

theorem Plays.relisted {role : Role} {name : Bytes} {node : Node}
    (hplays : Plays (known mode entries) role (name, node)) :
    ∃ node', Plays (known mode entries') role (name, node') ∧ node'.text = node.text := by
  obtain ⟨hmem, hfile, hfits⟩ := hplays
  obtain ⟨hsearch, hmem⟩ := mem_known_iff.1 hmem
  obtain ⟨node', hmem', hnode⟩ := h.exists_entry hmem
  exact ⟨node', ⟨mem_known_iff.2 ⟨hsearch, hmem'⟩, hnode.isFile_eq ▸ hfile, hfits⟩,
    hnode.text_eq.symm⟩

theorem ArtifactDefect.relisted {dir : Path} {name : String} {check : Check} {fault : Fault}
    (hdefect : ArtifactDefect dir name (known mode entries) check fault) :
    ArtifactDefect dir name (known mode entries') check fault := by
  cases hdefect with
  | clash ha hb hne hle =>
    obtain ⟨a', ha', -⟩ := ha.relisted h
    obtain ⟨b', hb', -⟩ := hb.relisted h
    exact .clash ha' hb' hne hle
  | missing hrole hnone =>
    refine .missing hrole fun entry hplays => ?_
    obtain ⟨node, hnode, -⟩ := Plays.relisted h.symm hplays
    exact hnone _ hnode
  | text hplays htext =>
    obtain ⟨node, hnode, hsame⟩ := hplays.relisted h
    exact .text hnode (hsame.trans htext)

theorem DirDefect.relisted {labels : RecordFile} {dir : Bytes} {check : Check} {fault : Fault}
    (hdefect : DirDefect path labels dir mode entries check fault) :
    DirDefect path labels dir mode entries' check fault := by
  cases hdefect with
  | name hname => exact .name hname
  | noLabel hname hnone => exact .noLabel hname hnone
  | badLabel hname hrecord htext hbad => exact .badLabel hname hrecord htext hbad
  | listing hread => exact .listing hread
  | artifacts hname hdefect => exact .artifacts hname (hdefect.relisted h)

end

theorem Defect.relisted {path : Path} {root root' : Option Node} {stage : Stage} {fault : Fault}
    (h : Option.Rel Node.Relisted root root') (hdefect : Defect path root stage fault) :
    Defect path root' stage fault := by
  cases hdefect with
  | root hnone =>
    refine .root ?_
    rintro mode entries rfl
    cases h with
    | some hnode =>
      obtain ⟨entries', rfl⟩ := hnode.symm.eq_dir
      exact hnone mode entries' rfl
  | labels hlabels =>
    cases h with
    | some hnode =>
      obtain ⟨entries', rfl⟩ := hnode.eq_dir
      exact .labels (hlabels.relisted hnode)
  | listing hread =>
    cases h with
    | some hnode =>
      obtain ⟨entries', rfl⟩ := hnode.eq_dir
      exact .listing hread
  | dir hlabels hhidden hmem hdefect =>
    cases h with
    | some hnode =>
      obtain ⟨entries', rfl⟩ := hnode.eq_dir
      obtain ⟨node, hmem', hinner⟩ := hnode.exists_entry hmem
      obtain ⟨inner', rfl⟩ := hinner.eq_dir
      exact .dir (hlabels.relisted hnode) hhidden hmem' (hdefect.relisted hinner)
  | orphan hlabels hkey hnone =>
    cases h with
    | some hnode =>
      obtain ⟨entries', rfl⟩ := hnode.eq_dir
      refine .orphan (hlabels.relisted hnode) hkey ?_
      rintro inner ⟨hhidden, mode, hmem⟩
      obtain ⟨node, hmem', hinner⟩ := hnode.symm.exists_entry hmem
      obtain ⟨inner', rfl⟩ := hinner.eq_dir
      exact hnone inner' ⟨hhidden, mode, hmem'⟩

/-! Where a directory has no earlier defect, its defect is the only one of its kind, unless there
are several pairs of files that clash. -/

theorem Fits.unique {role role' : Role} {name : Bytes} (h : Fits role name)
    (h' : Fits role' name) : role = role' :=
  Option.some.inj ((Artifact.ofStem?_stem_iff.2 h).symm.trans (Artifact.ofStem?_stem_iff.2 h'))

def ClashingPair (entries : List (Bytes × Node)) (a b : Bytes) : Prop :=
  a ≠ b ∧ ∃ role x y, Plays entries role (a, x) ∧ Plays entries role (b, y)

def ManyClashes (entries : List (Bytes × Node)) : Prop :=
  ∃ a b a' b', ClashingPair entries a b ∧ ClashingPair entries a' b' ∧ s(a, b) ≠ s(a', b')

inductive OtherClash (root : Option Node) : Fault → Fault → Prop
  | intro {mode entries name innerMode inner role first second role' first' second'} :
    root = some (.dir mode entries) → (Bytes.ofString name, .dir innerMode inner) ∈ entries →
    ManyClashes (known innerMode inner) →
    OtherClash root (.repeatedArtifact name role first second)
      (.repeatedArtifact name role' first' second')

section
variable {dir : Path} {name : String} {entries : List (Bytes × Node)} {check : Check}
  {fault fault' : Fault}

theorem exists_clash {role : Role} {a b : Bytes} {x y : Node} (dir : Path) (name : String)
    (ha : Plays entries role (a, x)) (hb : Plays entries role (b, y)) (hne : a ≠ b) :
    ∃ fault, ArtifactDefect dir name entries .clash fault := by
  rcases String.le_total (shown dir a) (shown dir b) with hle | hle
  · exact ⟨_, .clash ha hb hne hle⟩
  · exact ⟨_, .clash hb ha hne.symm hle⟩

theorem ArtifactDefect.clash_or_after (h : ArtifactDefect dir name entries check fault) :
    check = .clash ∨ Check.clash.rank < check.rank := by
  cases h with
  | clash => exact Or.inl rfl
  | missing => exact Or.inr (Nat.lt_of_lt_of_le (by decide) (Nat.le_add_right 5 _))
  | text => exact Or.inr (Nat.lt_of_lt_of_le (by decide) (Nat.le_add_right 9 _))

theorem ArtifactDefect.unique_clash (h : ArtifactDefect dir name entries .clash fault)
    (h' : ArtifactDefect dir name entries .clash fault') : fault' = fault ∨
      ManyClashes entries ∧ ∃ role first second role' first' second',
        fault = .repeatedArtifact name role first second ∧
        fault' = .repeatedArtifact name role' first' second' := by
  cases h with
  | @clash role a b x y ha hb hne hle =>
    cases h' with
    | @clash role' a' b' x' y' ha' hb' hne' hle' =>
      by_cases hsame : s(a, b) = s(a', b')
      · refine Or.inl ?_
        rcases Sym2.eq_iff.1 hsame with ⟨rfl, rfl⟩ | ⟨rfl, rfl⟩
        · rw [ha.fits.unique ha'.fits]
        · rw [ha.fits.unique hb'.fits, String.le_antisymm hle hle']
      · exact Or.inr ⟨⟨a, b, a', b', ⟨hne, role, x, y, ha, hb⟩, ⟨hne', role', x', y', ha', hb'⟩,
          hsame⟩, role, _, _, role', _, _, rfl, rfl⟩

theorem ArtifactDefect.unique (hnames : (entries.map Prod.fst).Nodup)
    (h : ArtifactDefect dir name entries check fault)
    (h' : ArtifactDefect dir name entries check fault')
    (hnone : ∀ fault, ¬ArtifactDefect dir name entries .clash fault) : fault' = fault := by
  cases h with
  | clash ha hb hne hle => exact absurd (.clash ha hb hne hle) (hnone _)
  | missing =>
    cases h' with
    | missing => rfl
  | @text role file node cause hplays htext =>
    cases h' with
    | @text _ file' node' cause' hplays' htext' =>
      by_cases hne : file = file'
      · subst hne
        have hsame := List.inj_on_of_nodup_map hnames hplays.mem hplays'.mem rfl
        obtain rfl := (Prod.mk.inj hsame).2
        rw [Except.error.inj (htext.symm.trans htext')]
      · obtain ⟨other, hclash⟩ := exists_clash dir name hplays hplays' hne
        exact absurd hclash (hnone other)

end

section
variable {path : Path} {labels : RecordFile} {dir : Bytes} {mode : Nat}
  {inner : List (Bytes × Node)} {check : Check} {fault fault' : Fault}

theorem nodup_known (hnames : (inner.map Prod.fst).Nodup) :
    ((known mode inner).map Prod.fst).Nodup := by
  rw [known]
  split
  · exact hnames
  · exact List.nodup_nil

theorem DirDefect.unique (hnames : (inner.map Prod.fst).Nodup)
    (h : DirDefect path labels dir mode inner check fault)
    (h' : DirDefect path labels dir mode inner check fault')
    (hfirst : ∀ earlier, earlier.rank < check.rank → ∀ other,
      ¬DirDefect path labels dir mode inner earlier other) : fault' = fault ∨
      ManyClashes (known mode inner) ∧ ∃ name role first second role' first' second',
        dir = Bytes.ofString name ∧ fault = .repeatedArtifact name role first second ∧
        fault' = .repeatedArtifact name role' first' second' := by
  cases h with
  | name =>
    cases h' with
    | name => exact Or.inl rfl
    | artifacts _ h' => exact nomatch h'
  | listing =>
    cases h' with
    | listing => exact Or.inl rfl
    | artifacts _ h' => exact nomatch h'
  | noLabel hname =>
    cases h' with
    | noLabel hname' => rw [Bytes.ofString_inj.1 (hname.symm.trans hname')]; exact Or.inl rfl
    | artifacts _ h' => exact nomatch h'
  | badLabel hname hrecord htext =>
    cases h' with
    | badLabel hname' hrecord' htext' =>
      obtain rfl := Bytes.ofString_inj.1 (hname.symm.trans hname')
      obtain rfl := Option.some.inj (hrecord.symm.trans hrecord')
      obtain rfl := Option.some.inj (htext.symm.trans htext')
      exact Or.inl rfl
    | artifacts _ h' => exact nomatch h'
  | @artifacts name _ _ hname h =>
    cases h' with
    | @artifacts name' _ _ hname' h' =>
      obtain rfl := Bytes.ofString_inj.1 (hname.symm.trans hname')
      rcases h.clash_or_after with rfl | hafter
      · rcases h.unique_clash h' with hsame | ⟨hmany, role, first, second, role', first', second',
          hfault, hfault'⟩
        · exact Or.inl hsame
        · exact Or.inr ⟨hmany, name, role, first, second, role', first', second', hname, hfault,
            hfault'⟩
      · exact Or.inl (h.unique (nodup_known hnames) h' fun other hclash =>
          hfirst .clash hafter other (.artifacts hname hclash))
    | _ => exact nomatch h

end

end Corpus
end MergeTrial
