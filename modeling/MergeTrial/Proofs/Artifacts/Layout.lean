import Mathlib.Data.List.Pairwise
import MergeTrial.Artifacts
import MergeTrial.Proofs.Corpus.Layout

/-! Which files the runs of a corpus are to have. Two of them are to be in one place exactly if the
extension of a scenario makes the name of one run's output the name of another's diff, or of what
its tool said on the side. -/

namespace MergeTrial.Artifacts
variable {corpus : Corpus} {scenario : Scenario} {run one other : Run} {runs : List Run}

inductive Kind where
  | merged
  | stderr
  | diff
  deriving DecidableEq

def Kind.all : List Kind := [.merged, .stderr, .diff]

def Kind.suffix (extension : Option String) : Kind → String
  | .merged => match extension with
    | some extension => ".merged." ++ extension
    | none => ".merged"
  | .stderr => ".stderr"
  | .diff => ".diff"

/-- The output of a completed run, what the tool said on the side if that is more than blanks, and
the diff of an output that is not the expected one. -/
def content? (scenario : Scenario) (run : Run) : Kind → Option String
  | .merged => if run.status.completed then some run.output else none
  | .stderr => if Text.allBlank run.stderr then none else some run.stderr
  | .diff =>
    if run.comparison = .differs then
      scenario.expected.map fun expected =>
        Diff.unified "expected" run.strategy expected run.output
    else none

/-- A file in the folder of a scenario. -/
structure Artifact where
  folder : String
  name : String
  content : String

def Artifact.place (a : Artifact) : Location :=
  [Bytes.ofString a.folder, Bytes.ofString a.name]

inductive Promises (scenario : Scenario) (run : Run) : Kind → Artifact → Prop
  | intro {kind content} (h : content? scenario run kind = some content) :
    Promises scenario run kind
      ⟨scenario.name, run.strategy ++ kind.suffix scenario.extension, content⟩

def artifacts (scenario : Scenario) (run : Run) : List Artifact :=
  (files scenario run).map fun file => ⟨scenario.name, file.1, file.2⟩

/-- A run of a scenario that is not in the corpus has no files. -/
def artifactsOf (corpus : Corpus) (run : Run) : List Artifact :=
  match corpus.get? run.scenario with
  | none => []
  | some scenario => artifacts scenario run

def promised (corpus : Corpus) (runs : List Run) : List Artifact :=
  runs.flatMap (artifactsOf corpus)

theorem promised_cons (corpus : Corpus) (run : Run) (runs : List Run) :
    promised corpus (run :: runs) = artifactsOf corpus run ++ promised corpus runs := rfl

theorem diff?_eq (scenario : Scenario) (run : Run) :
    diff? scenario run = content? scenario run .diff := by
  rw [diff?, content?]
  cases run.comparison <;> cases scenario.expected <;> rfl

theorem files_eq (scenario : Scenario) (run : Run) :
    files scenario run = Kind.all.filterMap fun kind =>
      (content? scenario run kind).map fun content =>
        (run.strategy ++ kind.suffix scenario.extension, content) := by
  have hmerged : mergedName run.strategy scenario.extension =
      run.strategy ++ Kind.merged.suffix scenario.extension := by
    cases scenario.extension <;> simp [mergedName, Kind.suffix, String.append_assoc]
  rw [files, hmerged, diff?_eq]
  simp only [Kind.all, List.filterMap_cons, List.filterMap_nil]
  generalize content? scenario run .diff = diff
  simp only [content?]
  cases run.status.completed <;> cases Text.allBlank run.stderr <;> cases diff <;> rfl

theorem mem_artifacts_iff {a : Artifact} :
    a ∈ artifacts scenario run ↔ ∃ kind, Promises scenario run kind a := by
  rw [artifacts, files_eq]
  simp only [List.mem_map, List.mem_filterMap, Option.map_eq_some_iff]
  constructor
  · rintro ⟨_, ⟨kind, -, content, hcontent, rfl⟩, rfl⟩
    exact ⟨kind, .intro hcontent⟩
  · rintro ⟨kind, h⟩
    cases h with
    | intro h => exact ⟨_, ⟨kind, by cases kind <;> decide, _, h, rfl⟩, rfl⟩

theorem mem_artifactsOf_iff {a : Artifact} : a ∈ artifactsOf corpus run ↔
    ∃ scenario kind, corpus.get? run.scenario = some scenario ∧ Promises scenario run kind a := by
  rw [artifactsOf]
  cases corpus.get? run.scenario with
  | none => simp
  | some scenario => simp [mem_artifacts_iff]

theorem mem_promised_iff {a : Artifact} : a ∈ promised corpus runs ↔
    ∃ run ∈ runs, ∃ scenario kind, corpus.get? run.scenario = some scenario ∧
      Promises scenario run kind a := by
  simp only [promised, List.mem_flatMap, mem_artifactsOf_iff]

section Names
variable {extension : Option String} {kind kind' : Kind} {a b : String}

/-- The name of the strategy `other` is that of `one` with `.merged` and a part of the extension
behind it, and the rest of the extension is the suffix of a file of `other`. -/
def Overlap (extension : Option String) (one other : String) (kind : Kind) : Prop :=
  ∃ text part, extension = some text ∧ other = one ++ ".merged" ++ part ∧
    "." ++ text = part ++ kind.suffix extension

theorem append_suffix_of_overlap (h : Overlap extension a b kind) :
    a ++ Kind.merged.suffix extension = b ++ kind.suffix extension := by
  obtain ⟨text, part, rfl, rfl, hrest⟩ := h
  rw [String.append_assoc, String.append_assoc, ← hrest, Kind.suffix]
  rfl

theorem not_overlap_self : ¬Overlap extension a a kind := by
  rintro ⟨_, part, -, hsame, -⟩
  have hlength := congrArg (fun s => s.toList.length) hsame
  simp at hlength

theorem exists_part {xs ys rest word : List Char} (h : xs ++ '.' :: rest = ys ++ '.' :: word)
    (hword : '.' ∉ word) : ∃ part, ys = xs ++ part ∧ '.' :: rest = part ++ '.' :: word := by
  rcases List.append_eq_append_iff.1 h with ⟨part, hys, hrest⟩ | ⟨more, hxs, hwhole⟩
  · exact ⟨part, hys, hrest⟩
  · cases more with
    | nil => exact ⟨[], by simp [hxs], hwhole.symm⟩
    | cons c more =>
      have hmem : '.' ∈ more ++ '.' :: rest := List.mem_append_right _ List.mem_cons_self
      exact absurd ((List.cons.inj hwhole).2 ▸ hmem) hword

theorem getLast?_suffix_eq (h : a ++ kind.suffix extension = b ++ kind'.suffix extension) :
    (kind.suffix extension).toList.getLast? = (kind'.suffix extension).toList.getLast? := by
  have hends : ∀ kind : Kind, (kind.suffix extension).toList ≠ [] := by
    intro kind
    cases kind with
    | merged => cases extension <;> simp [Kind.suffix]
    | stderr | diff => simp [Kind.suffix]
  have hlast := congrArg (·.toList.getLast?) h
  simp only [String.toList_append] at hlast
  rwa [List.getLast?_append_of_ne_nil _ (hends kind),
    List.getLast?_append_of_ne_nil _ (hends kind')] at hlast

theorem overlap_of_append_suffix_eq (hkind : kind ≠ .merged)
    (h : a ++ Kind.merged.suffix extension = b ++ kind.suffix extension) :
    Overlap extension a b kind := by
  cases extension with
  | none =>
    have hlast := getLast?_suffix_eq h
    cases kind with
    | merged => exact absurd rfl hkind
    | stderr | diff => simp [Kind.suffix] at hlast
  | some text =>
    obtain ⟨word, hword, hdot⟩ : ∃ word, (kind.suffix (some text)).toList = '.' :: word ∧
        '.' ∉ word := by
      cases kind with
      | merged => exact absurd rfl hkind
      | stderr => exact ⟨"stderr".toList, by simp [Kind.suffix], by decide⟩
      | diff => exact ⟨"diff".toList, by simp [Kind.suffix], by decide⟩
    have hchars : (a.toList ++ ".merged".toList) ++ '.' :: text.toList =
        b.toList ++ '.' :: word := by
      have hlists := congrArg String.toList h
      rw [String.toList_append, String.toList_append, hword] at hlists
      rw [← hlists]
      simp [Kind.suffix]
    obtain ⟨part, hb, hrest⟩ := exists_part hchars hdot
    refine ⟨text, String.ofList part, rfl, String.toList_inj.1 ?_, String.toList_inj.1 ?_⟩
    · simpa using hb
    · simpa [hword] using hrest

theorem append_suffix_eq (h : a ++ kind.suffix extension = b ++ kind'.suffix extension) :
    a = b ∧ kind = kind' ∨ kind = .merged ∧ Overlap extension a b kind' ∨
      kind' = .merged ∧ Overlap extension b a kind := by
  by_cases hkind : kind = .merged
  · subst hkind
    by_cases hkind' : kind' = .merged
    · subst hkind'
      exact Or.inl ⟨(String.append_left_inj _).1 h, rfl⟩
    · exact Or.inr (Or.inl ⟨rfl, overlap_of_append_suffix_eq hkind' h⟩)
  · by_cases hkind' : kind' = .merged
    · subst hkind'
      exact Or.inr (Or.inr ⟨rfl, overlap_of_append_suffix_eq hkind h.symm⟩)
    · have hlast := getLast?_suffix_eq h
      have hsame : kind = kind' := by
        cases kind <;> cases kind' <;> simp [Kind.suffix] at hkind hkind' hlast ⊢
      subst hsame
      exact Or.inl ⟨(String.append_left_inj _).1 h, rfl⟩

end Names

inductive Clash (corpus : Corpus) (one other : Run) : Prop
  | intro {scenario kind content} (hscenario : corpus.get? one.scenario = some scenario)
    (hsame : other.scenario = one.scenario) (hcompleted : one.status.completed = true)
    (hcontent : content? scenario other kind = some content)
    (hoverlap : Overlap scenario.extension one.strategy other.strategy kind)

theorem place_eq_iff {a b : Artifact} :
    a.place = b.place ↔ a.folder = b.folder ∧ a.name = b.name := by
  simp [Artifact.place]

theorem name_of_get? (h : corpus.get? run.scenario = some scenario) :
    scenario.name = run.scenario :=
  (Corpus.mem_scenarios_iff_get?.1 h).2

theorem eq_or_clash {kind kind' : Kind} {a b : Artifact}
    (hscenario : corpus.get? one.scenario = some scenario) (hsame : other.scenario = one.scenario)
    (ha : Promises scenario one kind a) (hb : Promises scenario other kind' b)
    (hname : a.name = b.name) :
    one.strategy = other.strategy ∧ kind = kind' ∨ Clash corpus one other ∨
      Clash corpus other one := by
  have hcompleted : ∀ {run content}, content? scenario run .merged = some content →
      run.status.completed = true := by
    intro run content hcontent
    by_contra hnot
    simp [content?, hnot] at hcontent
  cases ha with
  | intro ha =>
    cases hb with
    | intro hb =>
      rcases append_suffix_eq hname with h | ⟨rfl, hoverlap⟩ | ⟨rfl, hoverlap⟩
      · exact Or.inl h
      · exact Or.inr (Or.inl (.intro hscenario hsame (hcompleted ha) hb hoverlap))
      · exact Or.inr (Or.inr
          (.intro (hsame ▸ hscenario) hsame.symm (hcompleted hb) ha hoverlap))

theorem pairwise_artifacts (scenario : Scenario) (run : Run) :
    (artifacts scenario run).Pairwise fun a b => a.place ≠ b.place := by
  have hkinds : Kind.all.Pairwise (· ≠ ·) := by decide
  rw [artifacts, files_eq, List.pairwise_map, List.pairwise_filterMap]
  refine hkinds.imp fun hkind _ hfile _ hfile' hplace => ?_
  obtain ⟨_, -, rfl⟩ := Option.map_eq_some_iff.1 hfile
  obtain ⟨_, -, rfl⟩ := Option.map_eq_some_iff.1 hfile'
  rcases append_suffix_eq (place_eq_iff.1 hplace).2 with ⟨-, hsame⟩ | ⟨-, h⟩ | ⟨-, h⟩
  · exact hkind hsame
  · exact not_overlap_self h
  · exact not_overlap_self h

/-- No file of the one run is to be where one of the other is. -/
def Apart (corpus : Corpus) (one other : Run) : Prop :=
  ∀ a ∈ artifactsOf corpus one, ∀ b ∈ artifactsOf corpus other, a.place ≠ b.place

instance : Std.Symm (Apart corpus) := ⟨fun _ _ h a ha b hb => (h b hb a ha).symm⟩

theorem Clash.not_apart (h : Clash corpus one other) : ¬Apart corpus one other := by
  cases h with
  | @intro scenario kind content hscenario hsame hcompleted hcontent hoverlap =>
    have hmerged : Promises scenario one .merged _ := .intro (if_pos hcompleted)
    have hfile : Promises scenario other kind _ := .intro hcontent
    exact fun hapart => hapart _ (mem_artifactsOf_iff.2 ⟨_, _, hscenario, hmerged⟩)
      _ (mem_artifactsOf_iff.2 ⟨_, _, hsame ▸ hscenario, hfile⟩)
      (place_eq_iff.2 ⟨rfl, append_suffix_of_overlap hoverlap⟩)

theorem Clash.ne (h : Clash corpus one other) : one ≠ other := by
  rintro rfl
  cases h with
  | intro _ _ _ _ hoverlap => exact not_overlap_self hoverlap

theorem apart_or_clash (hne : (one.scenario, one.strategy) ≠ (other.scenario, other.strategy)) :
    Apart corpus one other ∨ Clash corpus one other ∨ Clash corpus other one := by
  by_cases hclash : Clash corpus one other ∨ Clash corpus other one
  · exact Or.inr hclash
  -- without a clash, one place would make the runs those of one scenario and one strategy
  · refine Or.inl fun a ha b hb hplace => ?_
    obtain ⟨hfolder, hname⟩ := place_eq_iff.1 hplace
    obtain ⟨scenario, kind, hscenario, ha⟩ := mem_artifactsOf_iff.1 ha
    obtain ⟨scenario', kind', hscenario', hb⟩ := mem_artifactsOf_iff.1 hb
    have hsame : other.scenario = one.scenario := by
      rw [← name_of_get? hscenario, ← name_of_get? hscenario']
      cases ha
      cases hb
      exact hfolder.symm
    obtain rfl : scenario = scenario' :=
      Option.some.inj (hscenario.symm.trans (hsame ▸ hscenario'))
    rcases eq_or_clash hscenario hsame ha hb hname with ⟨hstrategy, -⟩ | h
    · exact hne (Prod.ext hsame.symm hstrategy)
    · exact hclash h

/-- Two files are to be in one place exactly if two runs clash. -/
theorem nodup_places_iff (hpairs : (runs.map fun run => (run.scenario, run.strategy)).Nodup) :
    ((promised corpus runs).map Artifact.place).Nodup ↔
      ¬∃ one ∈ runs, ∃ other ∈ runs, Clash corpus one other := by
  rw [List.Nodup, List.pairwise_map, promised, List.pairwise_flatMap]
  constructor
  · rintro ⟨-, hruns⟩ ⟨one, hone, other, hother, hclash⟩
    have hapart : runs.Pairwise (Apart corpus) := hruns
    exact hclash.not_apart (hapart.forall hone hother hclash.ne)
  · intro hclash
    refine ⟨fun run _ => ?_, (List.pairwise_map.1 hpairs).imp_of_mem ?_⟩
    · rw [artifactsOf]
      cases corpus.get? run.scenario with
      | none => exact .nil
      | some scenario => exact pairwise_artifacts scenario run
    · intro one other hone hother hne
      rcases apart_or_clash hne with h | h | h
      · exact h
      · exact absurd ⟨one, hone, other, hother, h⟩ hclash
      · exact absurd ⟨other, hother, one, hone, h⟩ hclash

end MergeTrial.Artifacts
