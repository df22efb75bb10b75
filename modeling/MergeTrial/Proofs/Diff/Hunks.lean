import MergeTrial.Diff.Patch

/-! The hunks of a script lead from its source to its target: each one says where it starts on
either side, and what is between two hunks is the same on both. -/

namespace MergeTrial.Diff
variable {α : Type} {edits more : List (Edit α)} {xs rest : List α}

@[simp] theorem source_nil : source ([] : List (Edit α)) = [] := rfl

@[simp] theorem target_nil : target ([] : List (Edit α)) = [] := rfl

@[simp] theorem source_append : source (edits ++ more) = source edits ++ source more :=
  List.filterMap_append

@[simp] theorem target_append : target (edits ++ more) = target edits ++ target more :=
  List.filterMap_append

@[simp] theorem source_map_keep : source (xs.map .keep) = xs := by
  induction xs with
  | nil => rfl
  | cons x xs ih => simp [ih]

@[simp] theorem target_map_keep : target (xs.map .keep) = xs := by
  induction xs with
  | nil => rfl
  | cons x xs ih => simp [ih]

namespace Block
variable {b : Block α} {bs : List (Block α)}

@[simp] theorem source_changes : source b.changes = b.deleted := by
  have hdelete : source (b.deleted.map .delete) = b.deleted := by
    induction b.deleted with
    | nil => rfl
    | cons x xs ih => simp [ih]
  have hinsert : source (b.inserted.map .insert) = [] := by
    induction b.inserted with
    | nil => rfl
    | cons x xs ih => simp [ih]
  simp [changes, hdelete, hinsert]

@[simp] theorem target_changes : target b.changes = b.inserted := by
  have hdelete : target (b.deleted.map .delete) = [] := by
    induction b.deleted with
    | nil => rfl
    | cons x xs ih => simp [ih]
  have hinsert : target (b.inserted.map .insert) = b.inserted := by
    induction b.inserted with
    | nil => rfl
    | cons x xs ih => simp [ih]
  simp [changes, hdelete, hinsert]

def sourceOf (bs : List (Block α)) (rest : List α) : List α :=
  bs.flatMap (fun b => b.kept ++ b.deleted) ++ rest

def targetOf (bs : List (Block α)) (rest : List α) : List α :=
  bs.flatMap (fun b => b.kept ++ b.inserted) ++ rest

@[simp] theorem sourceOf_nil : sourceOf [] rest = rest := rfl

@[simp] theorem targetOf_nil : targetOf [] rest = rest := rfl

@[simp] theorem sourceOf_cons :
    sourceOf (b :: bs) rest = b.kept ++ b.deleted ++ sourceOf bs rest := by
  simp [sourceOf]

@[simp] theorem targetOf_cons :
    targetOf (b :: bs) rest = b.kept ++ b.inserted ++ targetOf bs rest := by
  simp [targetOf]

end Block
open Block

theorem sourceOf_blocksFrom (b : Block α) (edits : List (Edit α)) :
    sourceOf (blocksFrom b edits).1 (blocksFrom b edits).2 =
      b.kept ++ b.deleted ++ source edits := by
  fun_induction blocksFrom b edits with
  | case1 b h => simp_all
  | case2 b h => simp
  | case3 b x rest h ih => simp_all
  | case4 b x rest h more ih =>
    rw [sourceOf_cons, ih]
    simp
  | case5 b x rest ih => simpa using ih
  | case6 b x rest ih => simpa using ih

theorem targetOf_blocksFrom (b : Block α) (edits : List (Edit α)) :
    targetOf (blocksFrom b edits).1 (blocksFrom b edits).2 =
      b.kept ++ b.inserted ++ target edits := by
  fun_induction blocksFrom b edits with
  | case1 b h => simp_all
  | case2 b h => simp
  | case3 b x rest h ih => simp_all
  | case4 b x rest h more ih =>
    rw [targetOf_cons, ih]
    simp
  | case5 b x rest ih => simpa using ih
  | case6 b x rest ih => simpa using ih

namespace Hunk

def sourceEnd (h : Hunk α) : Nat := h.sourceStart + (source h.edits).length

def targetEnd (h : Hunk α) : Nat := h.targetStart + (target h.edits).length

end Hunk

def beforeContext (kept : List α) : List α := kept.take (kept.length - contextRadius)

theorem beforeContext_append (kept : List α) : beforeContext kept ++ lastContext kept = kept :=
  List.take_append_drop _ kept

section OpenHunk
variable {b : Block α} {s t : Nat}

@[simp] theorem source_openHunk :
    source (openHunk s t b).edits = lastContext b.kept ++ b.deleted := by
  simp [openHunk]

@[simp] theorem target_openHunk :
    target (openHunk s t b).edits = lastContext b.kept ++ b.inserted := by
  simp [openHunk]

theorem starts_openHunk : (openHunk s t b).sourceStart = s + (beforeContext b.kept).length ∧
    (openHunk s t b).targetStart = t + (beforeContext b.kept).length := by
  have hlength := congrArg List.length (beforeContext_append b.kept)
  rw [List.length_append] at hlength
  simp only [openHunk]
  omega

theorem ends_openHunk : (openHunk s t b).sourceEnd = s + b.kept.length + b.deleted.length ∧
    (openHunk s t b).targetEnd = t + b.kept.length + b.inserted.length := by
  have hlength := congrArg List.length (beforeContext_append b.kept)
  rw [List.length_append] at hlength
  simp only [Hunk.sourceEnd, Hunk.targetEnd, starts_openHunk, source_openHunk, target_openHunk,
    List.length_append]
  omega

end OpenHunk

/-- The hunks start where they say, after so many elements of either side, and lead from one to the
other. -/
inductive Fits : Nat → Nat → List (Hunk α) → List α → List α → Prop
  | done {passed made rest} : Fits passed made [] rest rest
  | hunk {passed made skipped h hs before after}
      (hsource : h.sourceStart = passed + skipped.length)
      (htarget : h.targetStart = made + skipped.length)
      (hfits : Fits h.sourceEnd h.targetEnd hs before after) :
      Fits passed made (h :: hs) (skipped ++ source h.edits ++ before)
        (skipped ++ target h.edits ++ after)

theorem fits_hunksFrom {current : Hunk α} {passed made : Nat} {skipped : List α}
    (hsource : current.sourceStart = passed + skipped.length)
    (htarget : current.targetStart = made + skipped.length) (bs : List (Block α)) :
    Fits passed made (hunksFrom current current.sourceEnd current.targetEnd bs rest)
      (skipped ++ source current.edits ++ sourceOf bs rest)
      (skipped ++ target current.edits ++ targetOf bs rest) := by
  induction bs generalizing current passed made skipped with
  | nil =>
    let last : Hunk α :=
      { current with edits := current.edits ++ (rest.take contextRadius).map .keep }
    have hlast : Fits passed made [last] (skipped ++ source last.edits ++ rest.drop contextRadius)
        (skipped ++ target last.edits ++ rest.drop contextRadius) := .hunk hsource htarget .done
    simpa [last, hunksFrom, -List.map_take] using hlast
  | cons b bs ih =>
    rw [hunksFrom]
    split
    · let longer : Hunk α :=
        { current with edits := current.edits ++ (b.kept.map .keep ++ b.changes) }
      have hlonger := @ih longer passed made skipped hsource htarget
      simpa [longer, Hunk.sourceEnd, Hunk.targetEnd, Nat.add_assoc] using hlonger
    · next hfar =>
      -- the hunk is closed after some context, and the next one opened before some
      let closed : Hunk α :=
        { current with edits := current.edits ++ (b.kept.take contextRadius).map .keep }
      let middle := (beforeContext b.kept).drop contextRadius
      have hmiddle : b.kept.take contextRadius ++ middle = beforeContext b.kept := by
        have htake : (beforeContext b.kept).take contextRadius = b.kept.take contextRadius := by
          rw [beforeContext, List.take_take]
          congr 1
          omega
        rw [← htake, List.take_append_drop]
      have hlength := congrArg List.length hmiddle
      rw [List.length_append] at hlength
      have hclosed : source closed.edits = source current.edits ++ b.kept.take contextRadius ∧
          target closed.edits = target current.edits ++ b.kept.take contextRadius := by
        simp [closed, -List.map_take]
      have hopened := @ih (openHunk current.sourceEnd current.targetEnd b) closed.sourceEnd
        closed.targetEnd middle ?_ ?_
      · rw [ends_openHunk.1, ends_openHunk.2, source_openHunk, target_openHunk] at hopened
        have hboth := @Fits.hunk _ passed made skipped closed _ _ _ hsource htarget hopened
        rw [hclosed.1, hclosed.2] at hboth
        have hsplit : ∀ tail, b.kept ++ tail =
            b.kept.take contextRadius ++ (middle ++ (lastContext b.kept ++ tail)) := by
          intro tail
          rw [← List.append_assoc, ← List.append_assoc, hmiddle, beforeContext_append]
        simpa only [sourceOf_cons, targetOf_cons, List.append_assoc, hsplit] using hboth
      · rw [starts_openHunk.1, Hunk.sourceEnd, Hunk.sourceEnd, hclosed.1, List.length_append]
        simp only [closed]
        omega
      · rw [starts_openHunk.2, Hunk.targetEnd, Hunk.targetEnd, hclosed.2, List.length_append]
        simp only [closed]
        omega

theorem sourceOf_blocks (edits : List (Edit α)) :
    sourceOf (blocks edits).1 (blocks edits).2 = source edits :=
  sourceOf_blocksFrom ⟨[], [], []⟩ edits

theorem targetOf_blocks (edits : List (Edit α)) :
    targetOf (blocks edits).1 (blocks edits).2 = target edits :=
  targetOf_blocksFrom ⟨[], [], []⟩ edits

theorem fits_hunks (edits : List (Edit α)) :
    Fits 0 0 (hunks edits) (source edits) (target edits) := by
  rw [hunks, ← sourceOf_blocks, ← targetOf_blocks]
  rcases blocks edits with ⟨bs, rest⟩
  cases bs with
  | nil => exact .done
  | cons b bs =>
    obtain ⟨hsource, htarget⟩ := starts_openHunk (b := b) (s := 0) (t := 0)
    have hfits := @fits_hunksFrom _ rest _ 0 0 _ hsource htarget bs
    simpa only [ends_openHunk, source_openHunk, target_openHunk, sourceOf_cons, targetOf_cons,
      ← List.append_assoc, beforeContext_append, Nat.zero_add] using hfits

theorem hunksFrom_ne_nil (current : Hunk α) (s t : Nat) (bs : List (Block α)) (rest : List α) :
    hunksFrom current s t bs rest ≠ [] := by
  induction bs generalizing current s t with
  | nil => exact List.cons_ne_nil _ _
  | cons b bs ih =>
    rw [hunksFrom]
    split
    · exact ih _ _ _
    · exact List.cons_ne_nil _ _

theorem source_eq_target_of_hunks (h : hunks edits = []) : source edits = target edits := by
  rw [← sourceOf_blocks, ← targetOf_blocks]
  rw [hunks] at h
  generalize blocks edits = made at h
  obtain ⟨bs, rest⟩ := made
  cases bs with
  | nil => rfl
  | cons b bs => exact absurd h (hunksFrom_ne_nil _ _ _ _ _)

namespace Patch
variable {hs : List (Hunk String)} {passed made : Nat} {before after : List String}

theorem applyFrom_of_fits (h : Fits passed made hs before after) :
    applyFrom passed made hs before = some after := by
  induction h with
  | done => rfl
  | @hunk passed made skipped h hs before after hsource htarget hfits ih =>
    have hskipped : h.sourceStart - passed = skipped.length := by omega
    have hdrop : (skipped ++ source h.edits ++ before).drop skipped.length =
        source h.edits ++ before := by
      rw [List.append_assoc, List.drop_left]
    have htake : (skipped ++ source h.edits ++ before).take skipped.length = skipped := by
      rw [List.append_assoc, List.take_left]
    rw [applyFrom, hskipped]
    simp only [hdrop, htake, List.drop_left]
    rw [if_pos, ← Hunk.sourceEnd, ← Hunk.targetEnd, ih]
    · rfl
    · refine ⟨by omega, by simp, htarget.symm, ?_⟩
      exact List.isPrefixOf_iff_prefix.2 (List.prefix_append _ _)

end Patch
end MergeTrial.Diff
