import Mathlib.Data.List.Nodup
import Mathlib.Data.Set.Subsingleton
import MergeTrial.Corpus.Load
import MergeTrial.Proofs.Text.Encoding

/-! What of a directory tree bears on the corpus in it, which trees hold a corpus at all, and which
corpus that is. Nothing here depends on how a corpus is loaded, nor on the order in which a
directory lists its entries. -/

namespace MergeTrial

inductive Node.Plain : Node → Prop
  | file {content : Bytes} {mode : Nat} (hread : Right.read.isIn mode = true) :
    Plain (.file content mode)
  | dir {mode : Nat} {entries : List (Bytes × Node)} (hread : Right.read.isIn mode = true)
    (hsearch : Right.execute.isIn mode = true) (hnames : (entries.map Prod.fst).Nodup)
    (hentries : ∀ entry ∈ entries, Plain entry.2) : Plain (.dir mode entries)

namespace Corpus

def stems : Role → List String
  | .ancestor => ["base", "ancestor"]
  | .left => ["left"]
  | .right => ["right"]
  | .expected => ["expected"]

def Fits (role : Role) (name : Bytes) : Prop :=
  ∃ stem ∈ stems role, ∃ rest, name = Bytes.ofString stem ++ rest ∧
    (rest = [] ∨ ∃ tail, rest = Path.dot :: tail)

def afterDot? (text : String) : Option String :=
  match text.toList.dropWhile (· != '.') with
  | [] => none
  | _ :: rest => some (String.ofList rest)

abbrev RoleFiles := Role → Set (Bytes × Bytes)

def filesOf (entries : List (Bytes × Node)) : RoleFiles := fun role =>
  {file | ∃ mode, (file.1, Node.file file.2 mode) ∈ entries ∧ Fits role file.1}

structure Complete (files : RoleFiles) : Prop where
  required : ∀ role, role ≠ .expected →
    ∃ name text, files role = {(name, Bytes.ofString text)}
  optional : files .expected = ∅ ∨ ∃ name text, files .expected = {(name, Bytes.ofString text)}

/-- The scenario is made of these files. -/
structure MadeOf (files : RoleFiles) (s : Scenario) : Prop where
  ancestor : ∃ name, files .ancestor = {(name, Bytes.ofString s.ancestor)} ∧
    s.extension = name.text?.bind afterDot?
  left : ∃ name, files .left = {(name, Bytes.ofString s.left)}
  right : ∃ name, files .right = {(name, Bytes.ofString s.right)}
  expected : match s.expected with
    | none => files .expected = ∅
    | some text => ∃ name, files .expected = {(name, Bytes.ofString text)}

theorem MadeOf.complete {files : RoleFiles} {s : Scenario} (h : MadeOf files s) :
    Complete files := by
  constructor
  · intro role hrole
    cases role with
    | ancestor => exact h.ancestor.imp fun _ h => ⟨s.ancestor, h.1⟩
    | left => exact h.left.imp fun _ h => ⟨s.left, h⟩
    | right => exact h.right.imp fun _ h => ⟨s.right, h⟩
    | expected => exact absurd rfl hrole
  · have hexpected := h.expected
    split at hexpected
    · exact Or.inl hexpected
    · next text _ => exact Or.inr (hexpected.imp fun _ h => ⟨text, h⟩)

theorem Complete.exists_madeOf {files : RoleFiles} (h : Complete files) (name : String)
    (label : Label) : ∃ s : Scenario, s.name = name ∧ s.label = label ∧ MadeOf files s := by
  obtain ⟨ancestorName, ancestor, hancestor⟩ := h.required .ancestor nofun
  obtain ⟨leftName, left, hleft⟩ := h.required .left nofun
  obtain ⟨rightName, right, hright⟩ := h.required .right nofun
  obtain ⟨expected, hexpected⟩ : ∃ expected : Option String, match expected with
      | none => files .expected = ∅
      | some text => ∃ name, files .expected = {(name, Bytes.ofString text)} := by
    rcases h.optional with hnone | ⟨name, text, htext⟩
    · exact ⟨none, hnone⟩
    · exact ⟨some text, name, htext⟩
  let extension := ancestorName.text?.bind afterDot?
  exact ⟨⟨name, label, ancestor, left, right, expected, extension⟩, rfl, rfl,
    ⟨ancestorName, hancestor, rfl⟩, ⟨leftName, hleft⟩, ⟨rightName, hright⟩, hexpected⟩

theorem MadeOf.unique {files : RoleFiles} {s t : Scenario} (hs : MadeOf files s)
    (ht : MadeOf files t) (hname : s.name = t.name) (hlabel : s.label = t.label) : s = t := by
  have hsame : ∀ {role name name'} {text text' : String},
      files role = {(name, Bytes.ofString text)} → files role = {(name', Bytes.ofString text')} →
      name = name' ∧ text = text' := by
    intro role name name' text text' h h'
    obtain ⟨hname, htext⟩ := Prod.mk.inj (Set.singleton_injective (h.symm.trans h'))
    exact ⟨hname, Bytes.ofString_inj.1 htext⟩
  obtain ⟨ancestor, hancestor, hextension⟩ := hs.ancestor
  obtain ⟨ancestor', hancestor', hextension'⟩ := ht.ancestor
  obtain ⟨rfl, hancestorText⟩ := hsame hancestor hancestor'
  have hleft := (hsame hs.left.choose_spec ht.left.choose_spec).2
  have hright := (hsame hs.right.choose_spec ht.right.choose_spec).2
  have hexpected : s.expected = t.expected := by
    have hs := hs.expected
    have ht := ht.expected
    split at hs <;> split at ht
    · next _ hnone _ hnone' => rw [hnone, hnone']
    · exact absurd (hs.symm.trans ht.choose_spec).symm (Set.singleton_ne_empty _)
    · exact absurd (ht.symm.trans hs.choose_spec).symm (Set.singleton_ne_empty _)
    · next _ _ hsome _ _ hsome' => rw [hsome, hsome', (hsame hs.choose_spec ht.choose_spec).2]
  cases s
  cases t
  simp_all

theorem mem_scenarios_iff_get? {c : Corpus} {s : Scenario} {name : String} :
    c.byName.get? name = some s ↔ s ∈ c.scenarios ∧ s.name = name := by
  rw [NameMap.get?_eq_some_iff, scenarios, List.mem_map]
  constructor
  · exact fun h => ⟨⟨_, h, rfl⟩, c.named _ h⟩
  · rintro ⟨⟨⟨key, s⟩, hentry, rfl⟩, rfl⟩
    have hname : s.name = key := c.named _ hentry
    rw [hname]
    exact hentry

structure Layout where
  labels : Set (List (String × Option String))
  dirs : Set Bytes
  files : Bytes → RoleFiles

def HoldsDir (entries : List (Bytes × Node)) (dir : Bytes) (inner : List (Bytes × Node)) : Prop :=
  dir.head? ≠ some Path.dot ∧ ∃ mode, (dir, Node.dir mode inner) ∈ entries

namespace Layout

def ofEntries (entries : List (Bytes × Node)) : Layout where
  labels := {labels | ∃ text mode records,
    (Bytes.ofString "scenarios.json", Node.file (Bytes.ofString text) mode) ∈ entries ∧
    (Json.read? text).bind RecordFile.entries? = some records ∧
    labels = records.map fun entry => (entry.1, entry.2.expected)}
  dirs := {dir | ∃ inner, HoldsDir entries dir inner}
  files dir role := {file | ∃ inner, HoldsDir entries dir inner ∧ file ∈ filesOf inner role}

/-- Every directory is labelled and complete, and every label has a directory. -/
structure IsCorpus (l : Layout) (labels : List (String × Option String)) : Prop where
  stated : labels ∈ l.labels
  nodup : (labels.map Prod.fst).Nodup
  dirs : ∀ dir, dir ∈ l.dirs ↔ ∃ key ∈ labels.map Prod.fst, dir = Bytes.ofString key
  valid : ∀ entry ∈ labels, entry.2 = some "CONFLICT" ∨ entry.2 = some "SUCCESS"
  complete : ∀ dir ∈ l.dirs, Complete (l.files dir)

structure Describes (l : Layout) (labels : List (String × Option String)) (c : Corpus) : Prop where
  stated : labels ∈ l.labels
  ascending : c.names.Pairwise (· < ·)
  names : ∀ name, name ∈ c.names ↔ name ∈ labels.map Prod.fst
  labelled : ∀ s ∈ c.scenarios, ∀ expected,
    (s.name, expected) ∈ labels ↔ expected = some s.label.name
  madeOf : ∀ s ∈ c.scenarios, MadeOf (l.files (Bytes.ofString s.name)) s

variable {l : Layout} {labels labels' : List (String × Option String)} {c c' : Corpus}

theorem Describes.isCorpus (h : l.Describes labels c) (hnodup : (labels.map Prod.fst).Nodup)
    (hdirs : ∀ dir, dir ∈ l.dirs ↔ ∃ s ∈ c.scenarios, dir = Bytes.ofString s.name) :
    l.IsCorpus labels where
  stated := h.stated
  nodup := hnodup
  dirs dir := by
    rw [hdirs]
    constructor
    · rintro ⟨s, hs, rfl⟩
      exact ⟨s.name, (h.names _).1 (List.mem_map_of_mem hs), rfl⟩
    · rintro ⟨key, hkey, rfl⟩
      obtain ⟨s, hs, rfl⟩ := List.mem_map.1 ((h.names key).2 hkey)
      exact ⟨s, hs, rfl⟩
  valid := by
    rintro ⟨key, expected⟩ hentry
    obtain ⟨s, hs, rfl⟩ := List.mem_map.1 ((h.names key).2 (List.mem_map_of_mem hentry))
    rw [(h.labelled s hs expected).1 hentry]
    cases s.label with
    | conflict => exact Or.inl rfl
    | success => exact Or.inr rfl
  complete dir hdir := by
    obtain ⟨s, hs, rfl⟩ := (hdirs dir).1 hdir
    exact (h.madeOf s hs).complete

theorem Describes.scenario_unique (h : l.Describes labels c) (h' : l.Describes labels c')
    {s t : Scenario} (hs : s ∈ c.scenarios) (ht : t ∈ c'.scenarios) (hname : s.name = t.name) :
    s = t := by
  refine (h.madeOf s hs).unique (hname ▸ h'.madeOf t ht) hname ?_
  have hlabel := (h.labelled s hs _).2 rfl
  rw [hname, h'.labelled t ht, Option.some_inj] at hlabel
  cases hs : s.label <;> cases ht : t.label <;> simp_all [Label.name]

theorem Describes.unique (h : l.Describes labels c) (h' : l.Describes labels c') : c = c' := by
  have hsub : ∀ {c c' : Corpus}, l.Describes labels c → l.Describes labels c' →
      ∀ {name s}, c.byName.get? name = some s → c'.byName.get? name = some s := by
    intro c c' h h' name s hfound
    obtain ⟨hs, rfl⟩ := mem_scenarios_iff_get?.1 hfound
    obtain ⟨t, ht, hname⟩ := List.mem_map.1
      ((h'.names s.name).2 ((h.names s.name).1 (List.mem_map_of_mem hs)))
    obtain rfl := h.scenario_unique h' hs ht hname.symm
    exact mem_scenarios_iff_get?.2 ⟨ht, rfl⟩
  have hmaps : c.byName = c'.byName := by
    ext1 name
    exact Option.ext fun s => ⟨hsub h h', hsub h' h⟩
  cases c
  cases c'
  cases hmaps
  rfl

theorem ofEntries_perm {entries entries' : List (Bytes × Node)} (h : entries.Perm entries') :
    ofEntries entries = ofEntries entries' := by
  simp only [ofEntries, HoldsDir, h.mem_iff]

theorem subsingleton_labels {entries : List (Bytes × Node)}
    (hnames : (entries.map Prod.fst).Nodup) : (ofEntries entries).labels.Subsingleton := by
  rintro labels ⟨text, mode, records, hmem, hdecode, rfl⟩
    labels' ⟨text', mode', records', hmem', hdecode', rfl⟩
  have hsame := List.inj_on_of_nodup_map hnames hmem hmem' rfl
  obtain ⟨htext, -⟩ := Node.file.inj (Prod.mk.inj hsame).2
  rw [Bytes.ofString_inj.1 htext] at hdecode
  rw [Option.some.inj (hdecode.symm.trans hdecode')]

end Layout
end Corpus
end MergeTrial
