import MergeTrial.Proofs.Corpus.Defects

/-! Steps that report the first of several defects, and the checks of a scenario's directory as such
steps: what they fail with is the first of the directory's defects. -/

namespace MergeTrial

namespace Outcome
variable {α β γ σ τ : Type} {before : σ → σ → Prop} {defect : σ → Fault → Prop}
  {stages stages' later : σ → Prop}

structure ReportsFirst (before : σ → σ → Prop) (defect : σ → Fault → Prop) (stages : σ → Prop)
    (x : Outcome α) : Prop where
  fails : ∀ {fault}, x = .error fault → ∃ s, stages s ∧ defect s fault ∧
    ∀ earlier, stages earlier → before earlier s → ∀ other, ¬defect earlier other
  passes : ∀ {a}, x = .ok a → ∀ s, stages s → ∀ fault, ¬defect s fault

namespace ReportsFirst
variable {x : Outcome α} {f : α → Outcome β}

theorem ok {a : α} (h : ∀ s, stages s → ∀ fault, ¬defect s fault) :
    ReportsFirst before defect stages (.ok a : Outcome α) :=
  ⟨nofun, fun _ => h⟩

theorem bind (hx : ReportsFirst before defect stages x)
    (hf : ∀ a, x = .ok a → ReportsFirst before defect later (f a))
    (horder : ∀ s t, stages s → later t → ¬before t s) :
    ReportsFirst before defect (fun s => stages s ∨ later s) (x >>= f) := by
  cases hresult : x with
  | error fault =>
    obtain ⟨s, hs, hdefect, hfirst⟩ := hx.fails hresult
    refine ⟨fun heq => ?_, nofun⟩
    obtain rfl := Except.error.inj heq
    refine ⟨s, Or.inl hs, hdefect, fun earlier hstage hbefore => ?_⟩
    rcases hstage with hstage | hstage
    · exact hfirst earlier hstage hbefore
    · exact absurd hbefore (horder s earlier hs hstage)
  | ok a =>
    have hnone := hx.passes hresult
    constructor
    · intro fault heq
      obtain ⟨s, hs, hdefect, hfirst⟩ := (hf a hresult).fails heq
      refine ⟨s, Or.inr hs, hdefect, fun earlier hstage hbefore => ?_⟩
      rcases hstage with hstage | hstage
      · exact hnone earlier hstage
      · exact hfirst earlier hstage hbefore
    · intro b heq s hstage
      rcases hstage with hstage | hstage
      · exact hnone s hstage
      · exact (hf a hresult).passes heq s hstage

theorem single {s : σ} (honly : ∀ t, stages t ↔ t = s) (hirrefl : ¬before s s)
    (hfails : ∀ fault, x = .error fault → defect s fault)
    (hpasses : ∀ a, x = .ok a → ∀ fault, ¬defect s fault) :
    ReportsFirst before defect stages x := by
  constructor
  · intro fault heq
    refine ⟨s, (honly s).2 rfl, hfails fault heq, fun earlier hstage hbefore => ?_⟩
    obtain rfl := (honly earlier).1 hstage
    exact absurd hbefore hirrefl
  · intro a heq t ht
    obtain rfl := (honly t).1 ht
    exact hpasses a heq

theorem widen (h : ReportsFirst before defect stages x) (hsub : ∀ s, stages s → stages' s)
    (hnone : ∀ s, stages' s → ¬stages s → ∀ fault, ¬defect s fault) :
    ReportsFirst before defect stages' x := by
  constructor
  · intro fault heq
    obtain ⟨s, hs, hdefect, hfirst⟩ := h.fails heq
    refine ⟨s, hsub s hs, hdefect, fun earlier hstage hbefore => ?_⟩
    by_cases hearlier : stages earlier
    · exact hfirst earlier hearlier hbefore
    · exact hnone earlier hstage hearlier
  · intro a heq s hstage
    by_cases hs : stages s
    · exact h.passes heq s hs
    · exact hnone s hstage hs

theorem lift {before' : τ → τ → Prop} {defect' : τ → Fault → Prop} {stages' : τ → Prop}
    (place : σ → τ) (h : ReportsFirst before defect stages x)
    (hstages : ∀ t, stages' t ↔ ∃ s, stages s ∧ t = place s)
    (hbefore : ∀ s t, before' (place s) (place t) → before s t)
    (hdefect : ∀ s, stages s → ∀ fault, defect' (place s) fault ↔ defect s fault) :
    ReportsFirst before' defect' stages' x := by
  constructor
  · intro fault heq
    obtain ⟨s, hs, hfault, hfirst⟩ := h.fails heq
    refine ⟨place s, (hstages _).2 ⟨s, hs, rfl⟩, (hdefect s hs fault).2 hfault, ?_⟩
    intro t ht hearlier other hother
    obtain ⟨earlier, hstage, rfl⟩ := (hstages t).1 ht
    exact hfirst earlier hstage (hbefore earlier s hearlier) other
      ((hdefect earlier hstage other).1 hother)
  · intro a heq t ht fault hfault
    obtain ⟨s, hs, rfl⟩ := (hstages t).1 ht
    exact h.passes heq s hs fault ((hdefect s hs fault).1 hfault)

theorem mapM {f : γ → Outcome β} {stages : γ → σ → Prop} {xs : List γ}
    (hf : ∀ x ∈ xs, ReportsFirst before defect (stages x) (f x))
    (horder : xs.Pairwise fun x y => ∀ s t, stages x s → stages y t → ¬before t s) :
    ReportsFirst before defect (fun s => ∃ x ∈ xs, stages x s) (xs.mapM f) := by
  induction xs with
  | nil => exact .ok fun s ⟨_, hx, _⟩ => absurd hx List.not_mem_nil
  | cons x rest ih =>
    obtain ⟨hx, hrest⟩ := List.pairwise_cons.1 horder
    have htail := ih (fun y hy => hf y (List.mem_cons_of_mem x hy)) hrest
    have hboth : ReportsFirst before defect
        (fun s => stages x s ∨ (∃ y ∈ rest, stages y s) ∨ False) ((x :: rest).mapM f) := by
      rw [List.mapM_cons]
      refine (hf x List.mem_cons_self).bind (fun y _ => ?_) ?_
      · exact htail.bind (fun ys _ => .ok fun _ h => absurd h not_false)
          fun _ _ _ h => absurd h not_false
      · rintro s t hs (⟨y, hy, ht⟩ | hnone)
        · exact hx y hy s t hs ht
        · exact absurd hnone not_false
    refine hboth.widen ?_ ?_
    · rintro s (hs | ⟨y, hy, hs⟩ | hnone)
      · exact ⟨x, List.mem_cons_self, hs⟩
      · exact ⟨y, List.mem_cons_of_mem x hy, hs⟩
      · exact absurd hnone not_false
    · rintro s ⟨y, hy, hs⟩ hnot
      rcases List.mem_cons.1 hy with rfl | hy
      · exact absurd (Or.inl hs) hnot
      · exact absurd (Or.inr (Or.inl ⟨y, hy, hs⟩)) hnot

end ReportsFirst
end Outcome

namespace Corpus
open Outcome

/-! The checks of one directory. -/

section
variable {α β : Type} {defect : Check → Fault → Prop} {x : Outcome α} {f : α → Outcome β}
  {lo m hi : Nat} {check : Check}

abbrev Checks (defect : Check → Fault → Prop) (lo hi : Nat) (x : Outcome α) : Prop :=
  ReportsFirst (fun c d => c.rank < d.rank) defect (fun c => lo ≤ c.rank ∧ c.rank < hi) x

theorem Checks.bind (hx : Checks defect lo m x) (hf : ∀ a, x = .ok a → Checks defect m hi (f a))
    (hranks : lo ≤ m ∧ m ≤ hi) : Checks defect lo hi (x >>= f) := by
  have hboth := ReportsFirst.bind hx hf fun s t hs ht hlt =>
    absurd hlt (Nat.not_lt.2 (Nat.le_trans (Nat.le_of_lt hs.2) ht.1))
  refine hboth.widen ?_ ?_
  · rintro c (hc | hc) <;> omega
  · intro c hc hnot
    omega

theorem Checks.single (hfails : ∀ fault, x = .error fault → defect check fault)
    (hpasses : ∀ a, x = .ok a → ∀ fault, ¬defect check fault) :
    Checks defect check.rank (check.rank + 1) x := by
  refine ReportsFirst.single (fun c => ⟨fun hc => ?_, ?_⟩) (Nat.lt_irrefl _) hfails hpasses
  · exact Check.eq_of_rank_eq (Nat.le_antisymm (Nat.le_of_lt_succ hc.2) hc.1)
  · rintro rfl
    exact ⟨Nat.le_refl _, Nat.lt_succ_self _⟩

theorem Checks.skip (check : Check) (hx : Checks defect (check.rank + 1) hi x)
    (hnone : ∀ fault, ¬defect check fault) : Checks defect check.rank hi x := by
  refine hx.widen (fun _ hc => ⟨Nat.le_of_succ_le hc.1, hc.2⟩) fun c hc hnot => ?_
  have hle : c.rank ≤ check.rank := Nat.not_lt.1 fun hlt => hnot ⟨hlt, hc.2⟩
  obtain rfl := Check.eq_of_rank_eq (Nat.le_antisymm hle hc.1)
  exact hnone

theorem Checks.error (check : Check) {fault : Fault} (hdefect : defect check fault)
    (hhi : check.rank < hi) : Checks defect check.rank hi (.error fault : Outcome α) := by
  refine ⟨fun heq => ?_, nofun⟩
  obtain rfl := Except.error.inj heq
  exact ⟨check, ⟨Nat.le_refl _, hhi⟩, hdefect,
    fun earlier hstage hbefore => absurd hbefore (Nat.not_lt.2 hstage.1)⟩

theorem Checks.done {a : α} : Checks defect lo lo (.ok a : Outcome α) :=
  .ok fun _ hc => absurd hc.2 (Nat.not_lt.2 hc.1)

end

section
variable {dir : Path} {name : String} {label : Label} {entries : List (Bytes × Node)}
  {role : Role} {entry : Bytes × Node}

theorem plays_iff :
    Plays entries role entry ↔ entry ∈ entries ∧ Artifact.role? entry = some role := by
  rw [Artifact.role?_eq_some_iff]
  exact ⟨fun h => ⟨h.mem, h.isFile, h.fits⟩, fun ⟨hmem, hfile, hfits⟩ => ⟨hmem, hfile, hfits⟩⟩

theorem firstClash_eq_some {seen : List (Bytes × Node)} {a b : Bytes × Node}
    (h : firstClash seen entries = some (role, a, b)) :
    Artifact.role? a = some role ∧ Artifact.role? b = some role ∧
      ∃ before after, entries = before ++ b :: after ∧ (a ∈ seen ∨ a ∈ before) := by
  induction entries generalizing seen with
  | nil => exact nomatch h
  | cons entry rest ih =>
    rw [firstClash] at h
    split at h
    · obtain ⟨ha, hb, before, after, rfl, hmem⟩ := ih h
      exact ⟨ha, hb, entry :: before, after, rfl, hmem.imp_right (List.mem_cons_of_mem entry)⟩
    · next role' hrole =>
      split at h
      · next earlier hfind =>
        obtain ⟨rfl, rfl, rfl⟩ : role' = role ∧ earlier = a ∧ entry = b := by simpa using h
        have hearlier : Artifact.role? earlier = some role' := by simpa using List.find?_some hfind
        exact ⟨hearlier, hrole, [], rest, rfl, Or.inl (List.mem_of_find?_eq_some hfind)⟩
      · obtain ⟨ha, hb, before, after, rfl, hmem⟩ := ih h
        refine ⟨ha, hb, entry :: before, after, rfl, ?_⟩
        rcases hmem with hmem | hmem
        · rcases List.mem_cons.1 hmem with rfl | hmem
          · exact Or.inr List.mem_cons_self
          · exact Or.inl hmem
        · exact Or.inr (List.mem_cons_of_mem entry hmem)

theorem clash_of_firstClash {a b : Bytes × Node} (hnames : (entries.map Prod.fst).Nodup)
    (h : firstClash [] entries = some (role, a, b)) :
    Plays entries role a ∧ Plays entries role b ∧ a.1 ≠ b.1 := by
  obtain ⟨ha, hb, before, after, rfl, hmem⟩ := firstClash_eq_some h
  have hbefore : a ∈ before := hmem.resolve_left List.not_mem_nil
  have hamem := List.mem_append_left (b :: after) hbefore
  have hbmem : b ∈ before ++ b :: after := List.mem_append_right before List.mem_cons_self
  refine ⟨plays_iff.2 ⟨hamem, ha⟩, plays_iff.2 ⟨hbmem, hb⟩, ?_⟩
  rw [List.map_append, List.nodup_append] at hnames
  exact hnames.2.2 a.1 (List.mem_map_of_mem hbefore) b.1 (List.mem_map_of_mem List.mem_cons_self)

theorem not_clash_of_firstClash (h : firstClash [] entries = none) (fault : Fault) :
    ¬ArtifactDefect dir name entries .clash fault := by
  rintro (@⟨role, a, b, x, y, ha, hb, hne, -⟩)
  obtain ⟨hpairwise, -⟩ := firstClash_eq_none_iff.1 h
  have hentries : (a, x) ≠ (b, y) := fun heq => hne (Prod.mk.inj heq).1
  exact hpairwise.forall ha.mem hb.mem hentries ⟨role, (plays_iff.1 ha).2, (plays_iff.1 hb).2⟩

theorem find_plays (h : (entries.find? fun entry => Artifact.role? entry == some role) =
    some entry) : Plays entries role entry :=
  plays_iff.2 ⟨List.mem_of_find?_eq_some h, by simpa using List.find?_some h⟩

theorem not_plays_of_find
    (h : (entries.find? fun entry => Artifact.role? entry == some role) = none)
    (entry : Bytes × Node) : ¬Plays entries role entry := by
  intro hplays
  obtain ⟨hmem, hrole⟩ := plays_iff.1 hplays
  exact List.find?_eq_none.1 h entry hmem (beq_iff_eq.2 hrole)

theorem checks_required (hrole : role ≠ .expected) :
    Checks (ArtifactDefect dir name entries) (Check.missing role).rank
      ((Check.missing role).rank + 1) (required name entries role) := by
  refine Checks.single (fun fault heq => ?_) fun entry heq fault hdefect => ?_
  · rw [required] at heq
    split at heq
    · cases heq
    · next hfind =>
      obtain rfl := Except.error.inj heq
      exact .missing hrole (not_plays_of_find hfind)
  · cases hdefect with
    | missing _ hnone => exact hnone entry (find_plays (required_eq_ok_iff.1 heq))

theorem checks_readArtifact (hnames : (entries.map Prod.fst).Nodup)
    (hclash : ∀ fault, ¬ArtifactDefect dir name entries .clash fault)
    (hplays : Plays entries role entry) :
    Checks (ArtifactDefect dir name entries) (Check.text role).rank ((Check.text role).rank + 1)
      (readArtifact dir entry) := by
  refine Checks.single (fun fault heq => ?_) fun text heq fault hdefect => ?_
  · rw [readArtifact] at heq
    split at heq
    · cases heq
    · next hcause =>
      obtain rfl := Except.error.inj heq
      exact .text hplays hcause
  · cases hdefect with
    | @text _ file node cause hother hcause =>
      rw [readArtifact_eq_ok_iff] at heq
      by_cases hne : entry.1 = file
      · have hsame := List.inj_on_of_nodup_map hnames hplays.mem hother.mem hne
        rw [hsame] at heq
        cases heq.symm.trans hcause
      · obtain ⟨other, h⟩ := exists_clash dir name hplays hother hne
        exact hclash other h

theorem checks_expected (hnames : (entries.map Prod.fst).Nodup)
    (hclash : ∀ fault, ¬ArtifactDefect dir name entries .clash fault) :
    Checks (ArtifactDefect dir name entries) (Check.text .expected).rank 13
      ((entries.find? fun entry => Artifact.role? entry == some Role.expected).mapM
        (readArtifact dir)) := by
  cases hfind : entries.find? fun entry => Artifact.role? entry == some Role.expected with
  | none =>
    refine Checks.skip (.text .expected) Checks.done fun fault hdefect => ?_
    cases hdefect with
    | text hplays => exact not_plays_of_find hfind _ hplays
  | some entry =>
    exact Checks.bind (checks_readArtifact hnames hclash (find_plays hfind))
      (fun _ _ => Checks.done) (by decide)

theorem checks_loadScenario (hnames : (entries.map Prod.fst).Nodup) :
    Checks (ArtifactDefect dir name entries) Check.clash.rank 13
      (loadScenario dir name label entries) := by
  rw [loadScenario]
  cases hclash : firstClash [] entries with
  | some clash =>
    obtain ⟨role, a, b⟩ := clash
    obtain ⟨ha, hb, hne⟩ := clash_of_firstClash hnames hclash
    refine Checks.error .clash ?_ (by decide)
    split
    · next hlt => exact .clash hb ha hne.symm (String.not_lt.1 (String.lt_asymm hlt))
    · next hle => exact .clash ha hb hne (String.not_lt.1 hle)
  | none =>
    have hnone : ∀ fault, ¬ArtifactDefect dir name entries .clash fault :=
      not_clash_of_firstClash hclash
    have hmissing : ∀ fault, ¬ArtifactDefect dir name entries (.missing .expected) fault := by
      intro fault hdefect
      cases hdefect with
      | missing hrole => exact hrole rfl
    have hread : ∀ {role entry}, required name entries role = .ok entry →
        Checks (ArtifactDefect dir name entries) (Check.text role).rank
          ((Check.text role).rank + 1) (readArtifact dir entry) := fun h =>
      checks_readArtifact hnames hnone (find_plays (required_eq_ok_iff.1 h))
    have hancestorRole : Role.ancestor ≠ .expected := by decide
    have hleftRole : Role.left ≠ .expected := by decide
    have hrightRole : Role.right ≠ .expected := by decide
    refine Checks.skip .clash ?_ hnone
    refine Checks.bind (checks_required hancestorRole) (fun ancestor hancestor => ?_) (by decide)
    refine Checks.bind (checks_required hleftRole) (fun left hleft => ?_) (by decide)
    refine Checks.bind (checks_required hrightRole) (fun right hright => ?_) (by decide)
    refine Checks.skip (.missing .expected) ?_ hmissing
    refine Checks.bind (hread hancestor) (fun _ _ => ?_) (by decide)
    refine Checks.bind (hread hleft) (fun _ _ => ?_) (by decide)
    refine Checks.bind (hread hright) (fun _ _ => ?_) (by decide)
    exact Checks.bind (checks_expected hnames hnone) (fun _ _ => Checks.done) (by decide)

end

section
variable {path : Path} {labels : RecordFile} {dir : Bytes} {mode : Nat}
  {inner : List (Bytes × Node)} {name : String}

theorem checks_labelOf : Checks (DirDefect path labels (Bytes.ofString name) mode inner)
    Check.noLabel.rank Check.listing.rank (labelOf labels name) := by
  rw [labelOf]
  cases hrecord : labels.get? name with
  | none =>
    refine Checks.error .noLabel (.noLabel rfl fun record h => ?_) (by decide)
    cases hrecord.symm.trans h
  | some record =>
    simp only [Record.label]
    cases hexpected : record.expected with
    | none =>
      refine Checks.error .noLabel (.noLabel rfl fun other h => ?_) (by decide)
      exact Option.some.inj (hrecord.symm.trans h) ▸ hexpected
    | some text =>
      dsimp only
      refine Checks.skip .noLabel ?_ fun fault hdefect => ?_
      · cases hlabel : Label.ofName? text with
        | none =>
          refine Checks.error .badLabel (.badLabel rfl hrecord hexpected fun label h => ?_)
            (by decide)
          cases hlabel.symm.trans (Label.ofName?_eq_some_iff.2 h)
        | some label =>
          refine Checks.skip .badLabel Checks.done fun fault hdefect => ?_
          cases hdefect with
          | badLabel hname hrecord' hexpected' hbad =>
            obtain rfl := Bytes.ofString_inj.1 hname
            obtain rfl := Option.some.inj (hrecord.symm.trans hrecord')
            obtain rfl := Option.some.inj (hexpected.symm.trans hexpected')
            exact hbad label (Label.ofName?_eq_some_iff.1 hlabel)
          | artifacts _ h => cases h
      · cases hdefect with
        | noLabel hname hnone =>
          obtain rfl := Bytes.ofString_inj.1 hname
          cases hexpected.symm.trans (hnone record hrecord)
        | artifacts _ h => cases h

theorem checks_loadDir (hnames : (inner.map Prod.fst).Nodup) :
    Checks (DirDefect path labels dir mode inner) 0 13
      (loadDir path labels (dir, .dir mode inner)) := by
  rw [loadDir]
  cases htext : dir.text? with
  | none => exact Checks.error .name (.name htext) (by decide)
  | some name =>
    obtain rfl := Bytes.text?_eq_some_iff.1 htext
    have hname : ∀ fault,
        ¬DirDefect path labels (Bytes.ofString name) mode inner .name fault := by
      intro fault hdefect
      cases hdefect with
      | name hnone => cases htext.symm.trans hnone
      | artifacts _ h => cases h
    have hlisting : Checks (DirDefect path labels (Bytes.ofString name) mode inner)
        Check.listing.rank Check.clash.rank
        (listDir (path.join (Bytes.ofString name)) (.dir mode inner)) := by
      refine Checks.single (fun fault heq => ?_) fun listed heq fault hdefect => ?_
      · obtain ⟨hdenied, rfl⟩ := listDir_dir_eq_error_iff.1 heq
        exact .listing hdenied
      · obtain ⟨hread, -⟩ := listDir_dir_eq_ok_iff.1 heq
        cases hdefect with
        | listing hdenied => cases hread.symm.trans hdenied
        | artifacts _ h => cases h
    refine Checks.skip .name ?_ hname
    refine Checks.bind checks_labelOf (fun label _ => ?_) (by decide)
    refine Checks.bind hlisting (fun entries hentries => ?_) (by decide)
    obtain ⟨-, rfl⟩ := listDir_dir_eq_ok_iff.1 hentries
    refine (checks_loadScenario (nodup_known hnames)).lift id (fun c => ?_) (fun _ _ h => h) ?_
    · simp
    · intro c hc fault
      constructor
      · intro hdefect
        cases hdefect with
        | artifacts hsame h =>
          obtain rfl := Bytes.ofString_inj.1 hsame
          exact h
        | _ => exact absurd hc.1 (by decide)
      · exact .artifacts rfl

end

end Corpus
end MergeTrial
