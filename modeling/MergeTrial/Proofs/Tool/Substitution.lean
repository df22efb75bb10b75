import MergeTrial.Proofs.Text.Patterns
import MergeTrial.Proofs.Tool.Scratch
import MergeTrial.Tool.Substitution

/-! Placeholders are replaced one kind after the other. That is the same as replacing all of them
at once, unless a path that was put in completes a placeholder of a kind that comes later. -/

namespace MergeTrial.Placeholder
open Text
variable {p t x y text : List Char}

theorem replaceFrom_length (pattern replacement skipped rest : List Char) :
    replaceFrom pattern replacement skipped.length (skipped ++ rest) =
      replaceFrom pattern replacement 0 rest := by
  induction skipped with
  | nil => rfl
  | cons c skipped ih => exact ih

theorem scans_replace {pattern : List Char} (hne : pattern ≠ []) (replacement : List Char) :
    Scans [(pattern, replacement)] (replace pattern replacement) where
  nil := rfl
  slot slot hslot rest := by
    obtain rfl := List.mem_singleton.1 hslot
    obtain ⟨c, more, rfl⟩ := List.exists_cons_of_ne_nil hne
    have hbegins : (c :: more).isPrefixOf (c :: (more ++ rest)) = true :=
      List.isPrefixOf_iff_prefix.2 ⟨rest, rfl⟩
    rw [replace, List.cons_append, replaceFrom, if_pos hbegins]
    exact congrArg (replacement ++ ·) (replaceFrom_length (c :: more) replacement more rest)
  char c rest hnone := by
    have hbegins : ¬pattern.isPrefixOf (c :: rest) = true := by
      rw [List.isPrefixOf_iff_prefix]
      exact hnone (pattern, replacement) (List.mem_singleton.2 rfl)
    rw [replace, replaceFrom, if_neg hbegins, replace]

theorem fills_replace {pattern : List Char} (hne : pattern ≠ [])
    (hclear : ¬Overhangs pattern pattern) (replacement : List Char) :
    Fills [(pattern, replacement)] (replace pattern replacement) := by
  refine (scans_replace hne replacement).fills ?_ ?_
  · intro slot hslot
    exact List.mem_singleton.1 hslot ▸ hne
  · intro slot hslot other hother
    obtain rfl := List.mem_singleton.1 hslot
    obtain rfl := List.mem_singleton.1 hother
    exact hclear

theorem occurs_iff {pattern : List Char} : occurs pattern text = true ↔ pattern <:+: text := by
  induction text with
  | nil => rw [occurs, List.isEmpty_iff, List.infix_nil]
  | cons c rest ih =>
    rw [occurs, Bool.or_eq_true, List.isPrefixOf_iff_prefix, ih, List.infix_cons_iff]

def slotsOf (paths : StagedPaths) : List Slot :=
  [(base, paths.base.toList), (left, paths.left.toList), (right, paths.right.toList)]

theorem mem_all_of_mem_slotsOf {paths : StagedPaths} {slot : Slot} (h : slot ∈ slotsOf paths) :
    slot.1 ∈ all :=
  List.mem_map_of_mem h

theorem ne_nil_of_mem_all : ∀ pattern ∈ all, pattern ≠ [] := by decide

theorem ne_nil_of_mem_slotsOf {paths : StagedPaths} : ∀ slot ∈ slotsOf paths, slot.1 ≠ [] :=
  fun _ hslot => ne_nil_of_mem_all _ (mem_all_of_mem_slotsOf hslot)

theorem not_overhangs_of_mem_all : ∀ p ∈ all, ∀ q ∈ all, ¬Overhangs p q := by decide

theorem leading?_eq_none {paths : StagedPaths} (h : ∀ slot ∈ slotsOf paths, ¬slot.1 <+: text) :
    leading? paths text = none := by
  simp only [slotsOf, List.forall_mem_cons, List.not_mem_nil, false_implies, implies_true,
    and_true, ← List.isPrefixOf_iff_prefix, Bool.not_eq_true] at h
  obtain ⟨hbase, hleft, hright⟩ := h
  simp only [leading?, List.find?_cons, hbase, hleft, hright, List.find?_nil, Option.map_none]

theorem scans_substitute (paths : StagedPaths) :
    Scans (slotsOf paths) (substituteFrom paths 0) where
  nil := rfl
  slot slot hslot rest := by
    simp only [slotsOf, List.mem_cons, List.not_mem_nil, or_false] at hslot
    rcases hslot with rfl | rfl | rfl <;> rfl
  char c rest hnone := by
    rw [substituteFrom, leading?_eq_none hnone]

theorem fills_substitute (paths : StagedPaths) : Fills (slotsOf paths) (substituteFrom paths 0) :=
  (scans_substitute paths).fills ne_nil_of_mem_slotsOf fun _ hslot _ hother =>
    not_overhangs_of_mem_all _ (mem_all_of_mem_slotsOf hslot) _ (mem_all_of_mem_slotsOf hother)

theorem fills_pass {pattern : List Char} (hpattern : pattern ∈ all) (path : List Char) :
    Fills [(pattern, path)] (replace pattern path) :=
  fills_replace (ne_nil_of_mem_all pattern hpattern)
    (not_overhangs_of_mem_all pattern hpattern pattern hpattern) path

def inTurn (paths : StagedPaths) : List Char → List Char :=
  replace right paths.right.toList ∘ replace left paths.left.toList ∘ replace base paths.base.toList

theorem expand_eq (paths : StagedPaths) (arg : String) :
    expand paths arg = String.ofList (inTurn paths arg.toList) := rfl

/-- No path that is put in completes a placeholder of a kind that is replaced after it. -/
structure Settled (paths : StagedPaths) : Prop where
  left_base : Apart left paths.base.toList
  right_base : Apart right paths.base.toList
  right_left : Apart right paths.left.toList

instance (paths : StagedPaths) : Decidable (Settled paths) :=
  decidable_of_iff (Apart left paths.base.toList ∧ Apart right paths.base.toList ∧
    Apart right paths.left.toList) ⟨fun h => ⟨h.1, h.2.1, h.2.2⟩,
      fun h => ⟨h.left_base, h.right_base, h.right_left⟩⟩

theorem fills_inTurn {paths : StagedPaths} (h : Settled paths) :
    Fills (slotsOf paths) (inTurn paths) := by
  have hbase := fills_pass (by decide : base ∈ all) paths.base.toList
  have hleft := fills_pass (by decide : left ∈ all) paths.left.toList
  have hright := fills_pass (by decide : right ∈ all) paths.right.toList
  have hboth : Fills [(base, paths.base.toList), (left, paths.left.toList)]
      (replace left paths.left.toList ∘ replace base paths.base.toList) := by
    refine hbase.comp hleft ?_ ?_ ?_
    · simp [base, left]
    · simpa only [List.forall_mem_singleton] using (by decide : Apart base left)
    · simpa only [List.forall_mem_singleton] using h.left_base
  have hpatterns : Apart base right ∧ Apart left right := by decide
  refine hboth.comp hright ne_nil_of_mem_slotsOf ?_ ?_
  · simpa only [List.forall_mem_cons, List.not_mem_nil, false_implies, implies_true, and_true]
      using hpatterns
  · simpa only [List.forall_mem_cons, List.not_mem_nil, false_implies, implies_true, and_true]
      using And.intro h.right_base h.right_left

theorem expand_eq_substitute {paths : StagedPaths} (h : Settled paths) (arg : String) :
    expand paths arg = substitute paths arg := by
  rw [expand_eq, substitute, (fills_inTurn h).unique (fills_substitute paths) ne_nil_of_mem_slotsOf]

theorem isTemplate_iff {arg : String} :
    isTemplate arg = true ↔ ∃ pattern ∈ all, pattern <:+: arg.toList := by
  simp only [isTemplate, List.any_eq_true, occurs_iff]

theorem not_infix_of_part (before part after : List Char) (hp : before ++ (part ++ after) ∈ all)
    (hproper : before ≠ [] ∨ after ≠ []) : ∀ q ∈ all, ¬q <:+: part := by
  intro q hq hfound
  have hsame : ∀ p ∈ all, ∀ q ∈ all, q <:+: p → q = p := by decide
  have hwhole := hsame _ hp q hq (hfound.trans ⟨before, after, List.append_assoc ..⟩)
  have hle := hfound.length_le
  rw [hwhole] at hle
  simp only [List.length_append] at hle
  rcases hproper with hne | hne
  · have := List.length_pos_iff.2 hne
    omega
  · have := List.length_pos_iff.2 hne
    omega

theorem exists_completion (hp : p ∈ all) (ht : t ≠ []) (h : ¬Apart p t) :
    ∃ x y, (∀ q ∈ all, ¬q <:+: x) ∧ (∀ q ∈ all, ¬q <:+: y) ∧ p <:+: x ++ (t ++ y) := by
  have hnil : ∀ q ∈ all, ¬q <:+: [] := by decide
  have hcases : Agree p t ∨ Overhangs p t ∨ Overhangs t p := by
    by_contra hnone
    simp only [not_or] at hnone
    exact h ⟨hnone.1, hnone.2.1, hnone.2.2⟩
  rcases hcases with (hinside | ⟨y, rfl⟩) | hover | hunder
  · exact ⟨[], [], hnil, hnil, by simpa using hinside.isInfix⟩
  · have hy := not_infix_of_part t y [] (by simpa using hp) (Or.inl ht)
    exact ⟨[], y, hnil, hy, List.infix_refl _⟩
  · obtain ⟨x, rest, hx, hrest, rfl, hagree⟩ := overhangs_iff.1 hover
    have hxnone := not_infix_of_part [] x rest hp (Or.inr hrest)
    rcases hagree with ⟨more, rfl⟩ | ⟨y, rfl⟩
    · exact ⟨x, [], hxnone, hnil, [], more, by simp⟩
    · have hy := not_infix_of_part (x ++ t) y [] (by simpa using hp) (Or.inl (by simp [hx]))
      exact ⟨x, y, hxnone, hy, List.infix_refl _⟩
  · obtain ⟨before, rest, -, hrest, rfl, ⟨y, rfl⟩ | ⟨more, rfl⟩⟩ := overhangs_iff.1 hunder
    · have hy := not_infix_of_part rest y [] (by simpa using hp) (Or.inl hrest)
      exact ⟨[], y, hnil, hy, before, [], by simp⟩
    · exact ⟨[], [], hnil, hnil, before, more, by simp⟩

def Exceeds (paths : StagedPaths) : Prop := ∀ slot ∈ slotsOf paths, slot.1.length < slot.2.length

instance (paths : StagedPaths) : Decidable (Exceeds paths) :=
  inferInstanceAs (Decidable (∀ slot ∈ slotsOf paths, slot.1.length < slot.2.length))

theorem replace_plain (hp : p ∈ all) (path : List Char) (hocc : ¬p <:+: text) :
    replace p path text = text :=
  (fills_pass hp path).plain text (by simpa using hocc)

theorem replace_between (hp : p ∈ all) (path : List Char) (hx : ¬p <:+: x) (hy : ¬p <:+: y) :
    replace p path (x ++ (p ++ y)) = x ++ (path ++ y) := by
  have hfilled := (fills_pass hp path).filled (p, path) (List.mem_singleton.2 rfl) x y
  rw [hfilled, replace_plain hp path hx, replace_plain hp path hy]

theorem length_le_replace (hp : p ∈ all) {path : List Char} (hlong : p.length < path.length)
    (text : List Char) : text.length ≤ (replace p path text).length :=
  (fills_pass hp path).length_le (by simpa using ne_nil_of_mem_all p hp)
    (by simpa using hlong.le) text

theorem length_lt_replace (hp : p ∈ all) {path : List Char} (hlong : p.length < path.length)
    (hocc : p <:+: text) : text.length < (replace p path text).length :=
  (fills_pass hp path).length_lt (by simpa using ne_nil_of_mem_all p hp) (by simpa using hlong)
    (by simpa using hocc)

theorem replace_ne_self (hp : p ∈ all) {path : List Char} (hlong : p.length < path.length)
    (hocc : p <:+: text) : replace p path text ≠ text := by
  intro hsame
  have hlt := length_lt_replace hp hlong hocc
  rw [hsame] at hlt
  exact lt_irrefl _ hlt

theorem inTurn_between {paths : StagedPaths} {path : List Char}
    (h : ∀ arg, isTemplate arg = true → expand paths arg = substitute paths arg)
    (hslot : (p, path) ∈ slotsOf paths) (hx : ∀ q ∈ all, ¬q <:+: x) (hy : ∀ q ∈ all, ¬q <:+: y) :
    inTurn paths (x ++ (p ++ y)) = x ++ (path ++ y) := by
  have hf := fills_substitute paths
  have hfilled := hf.filled (p, path) hslot x y
  have hocc : isTemplate (String.ofList (x ++ (p ++ y))) = true := by
    rw [isTemplate_iff, String.toList_ofList]
    exact ⟨p, mem_all_of_mem_slotsOf hslot, x, y, List.append_assoc ..⟩
  have hsame := h _ hocc
  rw [expand_eq, substitute, String.ofList_inj, String.toList_ofList] at hsame
  rw [hsame, hfilled, hf.plain x fun other hother => hx _ (mem_all_of_mem_slotsOf hother),
    hf.plain y fun other hother => hy _ (mem_all_of_mem_slotsOf hother)]

/-- With paths that long, replacing in turn is replacing at once only if they are settled: where a
path completes a later placeholder, the text becomes longer than it should. -/
theorem settled_of_expand_eq {paths : StagedPaths} (hlong : Exceeds paths)
    (h : ∀ arg, isTemplate arg = true → expand paths arg = substitute paths arg) :
    Settled paths := by
  obtain ⟨hlongBase, hlongLeft, hlongRight⟩ :
      base.length < paths.base.toList.length ∧ left.length < paths.left.toList.length ∧
        right.length < paths.right.toList.length := by
    simpa [Exceeds, slotsOf] using hlong
  have hbaseNe := List.ne_nil_of_length_pos (Nat.zero_lt_of_lt hlongBase)
  have hleftNe := List.ne_nil_of_length_pos (Nat.zero_lt_of_lt hlongLeft)
  have hbase : base ∈ all := by decide
  have hleft : left ∈ all := by decide
  have hright : right ∈ all := by decide
  have hleftBase : Apart left paths.base.toList := by
    by_contra hnot
    obtain ⟨x, y, hx, hy, hocc⟩ := exists_completion hleft hbaseNe hnot
    have hwhole := inTurn_between h List.mem_cons_self hx hy
    rw [inTurn, Function.comp_apply, Function.comp_apply,
      replace_between hbase _ (hx _ hbase) (hy _ hbase)] at hwhole
    have hlt := length_lt_replace hleft hlongLeft hocc
    have hle := length_le_replace hright hlongRight
      (replace left paths.left.toList (x ++ (paths.base.toList ++ y)))
    rw [hwhole] at hle
    exact lt_irrefl _ (hlt.trans_le hle)
  have hrightBase : Apart right paths.base.toList := by
    by_contra hnot
    obtain ⟨x, y, hx, hy, hocc⟩ := exists_completion hright hbaseNe hnot
    have hnone : ¬left <:+: x ++ (paths.base.toList ++ y) := by
      intro hfound
      exact (infix_of_apart hleftBase hfound).elim (hx left hleft) (hy left hleft)
    have hwhole := inTurn_between h List.mem_cons_self hx hy
    rw [inTurn, Function.comp_apply, Function.comp_apply,
      replace_between hbase _ (hx _ hbase) (hy _ hbase), replace_plain hleft _ hnone] at hwhole
    exact replace_ne_self hright hlongRight hocc hwhole
  have hrightLeft : Apart right paths.left.toList := by
    by_contra hnot
    obtain ⟨x, y, hx, hy, hocc⟩ := exists_completion hright hleftNe hnot
    have hnone : ¬base <:+: x ++ (left ++ y) := by
      intro hfound
      have hapart : Apart base left := by decide
      exact (infix_of_apart hapart hfound).elim (hx base hbase) (hy base hbase)
    have hwhole := inTurn_between h (List.mem_cons_of_mem _ List.mem_cons_self) hx hy
    rw [inTurn, Function.comp_apply, Function.comp_apply, replace_plain hbase _ hnone,
      replace_between hleft _ (hx _ hleft) (hy _ hleft)] at hwhole
    exact replace_ne_self hright hlongRight hocc hwhole
  exact ⟨hleftBase, hrightBase, hrightLeft⟩

theorem mem_of_agree {c : Char} (hs : s ≠ []) (h : Agree s (c :: t)) : c ∈ s := by
  rcases h with ⟨rest, heq⟩ | hbegins
  · obtain ⟨d, s, rfl⟩ := List.exists_cons_of_ne_nil hs
    obtain ⟨rfl, -⟩ := List.cons.inj heq
    exact List.mem_cons_self
  · exact hbegins.subset List.mem_cons_self

theorem apart_of_absolute (hp : p ∈ all) (ht : '\x7b' ∉ '/' :: t) : Apart p ('/' :: t) := by
  have hshape : ∀ p ∈ all, '/' ∉ p ∧ p = '\x7b' :: p.tail := by decide
  obtain ⟨hslash, hbrace⟩ := hshape p hp
  refine ⟨fun h => ?_, fun h => ?_, fun h => ?_⟩
  · exact hslash (mem_of_agree (ne_nil_of_mem_all p hp) h)
  · obtain ⟨before, rest, -, hrest, heq, hagree⟩ := overhangs_iff.1 h
    exact hslash (heq ▸ List.mem_append_right before (mem_of_agree hrest hagree))
  · obtain ⟨before, rest, -, hrest, heq, hagree⟩ := overhangs_iff.1 h
    rw [hbrace] at hagree
    exact ht (heq ▸ List.mem_append_right before (mem_of_agree hrest hagree))

end MergeTrial.Placeholder

namespace MergeTrial.Staging
variable {scratch : Scratch} {scenario : Scenario} {dir stem content : String}

theorem display_filePath (hpath : scratch.path = Bytes.ofString dir) (hdir : dir ≠ "")
    (hstem : (stem, content) ∈ inputs scenario) : ∃ sep, (sep = "" ∨ sep = "/") ∧
      Bytes.display (filePath scratch scenario stem) = dir ++ sep ++ fileName scenario stem := by
  have hplain := ((inputs_plain scenario).1 _ hstem).not_absolute
  have hnotempty : (Bytes.ofString dir).isEmpty = false := by
    rw [List.isEmpty_eq_false_iff]
    exact fun hnil => hdir (Bytes.ofString_inj.1 hnil)
  rw [filePath, hpath, Path.join, ofString_fileName, hplain, hnotempty, Bool.or_false,
    ← ofString_fileName, if_neg Bool.false_ne_true]
  split
  · refine ⟨"", Or.inl rfl, ?_⟩
    rw [← Bytes.ofString_append, Bytes.display_ofString, String.append_empty]
  · refine ⟨"/", Or.inr rfl, ?_⟩
    have hslash : Path.slash :: Bytes.ofString (fileName scenario stem) =
        Bytes.ofString ("/" ++ fileName scenario stem) := by
      rw [Bytes.ofString_append]
      rfl
    rw [hslash, ← Bytes.ofString_append, Bytes.display_ofString, String.append_assoc]

theorem brace_not_mem_fileName (hstem : (stem, content) ∈ inputs scenario)
    (hext : ∀ extension ∈ scenario.extension, '\x7b' ∉ extension.toList) :
    '\x7b' ∉ (fileName scenario stem).toList := by
  have hnone : '\x7b' ∉ stem.toList := by
    simp only [inputs, List.mem_cons, Prod.mk.injEq, List.not_mem_nil, or_false] at hstem
    rcases hstem with ⟨rfl, -⟩ | ⟨rfl, -⟩ | ⟨rfl, -⟩ <;> decide
  rw [fileName]
  cases h : scenario.extension with
  | none => exact hnone
  | some extension => simp [hnone, hext extension h]

theorem settled_paths (hpath : scratch.path = Bytes.ofString dir)
    (habsolute : dir.toList.head? = some '/') (hdir : '\x7b' ∉ dir.toList)
    (hext : ∀ extension ∈ scenario.extension, '\x7b' ∉ extension.toList) :
    Placeholder.Settled (paths scratch scenario) := by
  obtain ⟨more, hmore⟩ := List.head?_eq_some_iff.1 habsolute
  have hne : dir ≠ "" := by
    rintro rfl
    exact nomatch hmore
  have hapart : ∀ p ∈ Placeholder.all, ∀ stem content, (stem, content) ∈ inputs scenario →
      Text.Apart p (Bytes.display (filePath scratch scenario stem)).toList := by
    intro p hp stem content hstem
    obtain ⟨sep, hsep, heq⟩ := display_filePath hpath hne hstem
    have hname := brace_not_mem_fileName hstem hext
    have hbrace : '\x7b' ∉ sep.toList := by
      rcases hsep with rfl | rfl <;> decide
    have hwhole : (Bytes.display (filePath scratch scenario stem)).toList =
        '/' :: (more ++ sep.toList ++ (fileName scenario stem).toList) := by
      rw [heq, String.toList_append, String.toList_append, hmore]
      rfl
    rw [hwhole]
    refine Placeholder.apart_of_absolute hp ?_
    rw [hmore] at hdir
    simp only [List.mem_cons, List.mem_append, not_or] at hdir ⊢
    exact ⟨hdir.1, ⟨hdir.2, hbrace⟩, hname⟩
  have hbase : ("base", scenario.ancestor) ∈ inputs scenario := List.mem_cons_self
  have hleft : ("left", scenario.left) ∈ inputs scenario :=
    List.mem_cons_of_mem _ List.mem_cons_self
  constructor
  · exact hapart Placeholder.left (by decide) "base" _ hbase
  · exact hapart Placeholder.right (by decide) "base" _ hbase
  · exact hapart Placeholder.right (by decide) "left" _ hleft

end MergeTrial.Staging

namespace MergeTrial
open Text Placeholder

def Templated (args : List String) : Prop := ∃ arg ∈ args, ∃ p ∈ all, p <:+: arg.toList

instance (args : List String) : Decidable (Templated args) :=
  inferInstanceAs (Decidable (∃ arg ∈ args, ∃ p ∈ all, p <:+: arg.toList))

theorem any_isTemplate_iff {args : List String} :
    args.any isTemplate = true ↔ Templated args := by
  simp only [List.any_eq_true, isTemplate_iff, Templated]

/-- Without placeholders the arguments are kept, and the three paths come after them. Otherwise
each argument gets the paths in place of its placeholders, of one kind after the other. That is all
placeholders of the argument at once if the paths are settled; and only then, if they are longer
than the placeholders. The paths of staged files are settled if the scratch directory and the
extension have no opening brace. -/
theorem renderArgs_replaces (paths : StagedPaths) :
    (∀ args, ¬Templated args →
      renderArgs args paths = args ++ [paths.base, paths.left, paths.right]) ∧
    (∀ args, Templated args → ∃ first second third,
      Fills [(base, paths.base.toList)] first ∧ Fills [(left, paths.left.toList)] second ∧
      Fills [(right, paths.right.toList)] third ∧
      renderArgs args paths =
        args.map fun arg => String.ofList (third (second (first arg.toList)))) ∧
    Fills (slotsOf paths) (fun text => (substitute paths (String.ofList text)).toList) ∧
    (Settled paths →
      ∀ args, Templated args → renderArgs args paths = args.map (substitute paths)) ∧
    (Exceeds paths →
      (∀ args, Templated args → renderArgs args paths = args.map (substitute paths)) →
      Settled paths) ∧
    ∀ scratch scenario dir, paths = Staging.paths scratch scenario →
      scratch.path = Bytes.ofString dir → dir.toList.head? = some '/' → '\x7b' ∉ dir.toList →
      (∀ extension ∈ scenario.extension, '\x7b' ∉ extension.toList) → Settled paths := by
  have hrender : ∀ args, Templated args → renderArgs args paths = args.map (expand paths) := by
    intro args h
    rw [renderArgs, if_pos (any_isTemplate_iff.2 h)]
  refine ⟨fun args h => ?_, fun args h => ?_, ?_, fun hsettled args h => ?_, fun hlong h => ?_, ?_⟩
  · rw [renderArgs, if_neg (any_isTemplate_iff.not.2 h)]
  · exact ⟨_, _, _, fills_pass (by decide) _, fills_pass (by decide) _, fills_pass (by decide) _,
      hrender args h⟩
  · simpa only [substitute, String.toList_ofList] using fills_substitute paths
  · rw [hrender args h]
    exact List.map_congr_left fun arg _ => expand_eq_substitute hsettled arg
  · refine settled_of_expand_eq hlong fun arg harg => ?_
    have hone : Templated [arg] := ⟨arg, List.mem_singleton.2 rfl, isTemplate_iff.1 harg⟩
    have hsame := (hrender [arg] hone).symm.trans (h [arg] hone)
    exact List.singleton_inj.1 hsame
  · rintro scratch scenario dir rfl hpath habsolute hdir hext
    exact Staging.settled_paths hpath habsolute hdir hext

def stagedWith (extension : String) : StagedPaths :=
  Staging.paths ⟨[], Bytes.ofString "/tmp/mergebench-000000"⟩
    { (default : Scenario) with extension := some extension }

theorem stagedSwift_renderArgs_replaces :
    renderArgs ["--quiet", "\x7bbase"] (stagedWith "swift") =
      ["--quiet", "\x7bbase", "/tmp/mergebench-000000/base.swift",
        "/tmp/mergebench-000000/left.swift", "/tmp/mergebench-000000/right.swift"] ∧
    renderArgs ["--quiet", "\x7bba\x7bright\x7dse\x7d", "\x7bleft\x7d:\x7bbase\x7d"]
        (stagedWith "swift") =
      ["--quiet", "\x7bba/tmp/mergebench-000000/right.swiftse\x7d",
        "/tmp/mergebench-000000/left.swift:/tmp/mergebench-000000/base.swift"] ∧
    Settled (stagedWith "swift") := by
  obtain ⟨happended, -, -, hatOnce, honly, hstaged⟩ := renderArgs_replaces (stagedWith "swift")
  have hsettled : Settled (stagedWith "swift") :=
    hstaged _ _ "/tmp/mergebench-000000" rfl rfl rfl (by decide) (by decide)
  exact ⟨(happended _ (by decide)).trans (by decide), (hatOnce hsettled _ (by decide)).trans
    (by decide), honly (by decide) (hatOnce hsettled)⟩

/-- A scenario whose files have a placeholder for their extension: the path of the left file is put
into that of the ancestor. -/
theorem stagedLeft_not_at_once :
    renderArgs ["\x7bbase\x7d"] (stagedWith "\x7bleft\x7d") =
      ["/tmp/mergebench-000000/base./tmp/mergebench-000000/left.\x7bleft\x7d"] ∧
    ["\x7bbase\x7d"].map (substitute (stagedWith "\x7bleft\x7d")) =
      ["/tmp/mergebench-000000/base.\x7bleft\x7d"] ∧
    ¬∀ args, Templated args → renderArgs args (stagedWith "\x7bleft\x7d") =
      args.map (substitute (stagedWith "\x7bleft\x7d")) := by
  refine ⟨by decide, by decide, fun h => ?_⟩
  have hsame := h ["\x7bbase\x7d"] (by decide)
  exact absurd hsame (by decide)

end MergeTrial
