import MergeTrial.Diff.Script

/-! No script between two lists is shorter than the one that is found: it keeps as much as any. -/

namespace MergeTrial.Diff
variable {α : Type} {x y : α} {xs ys : List α} {edits : List (Edit α)}

def Edit.isKeep : Edit α → Bool
  | .keep _ => true
  | .delete _ | .insert _ => false

def keptCount (edits : List (Edit α)) : Nat := edits.countP Edit.isKeep

@[simp] theorem keptCount_nil : keptCount ([] : List (Edit α)) = 0 := rfl

@[simp] theorem keptCount_keep (x : α) (es : List (Edit α)) :
    keptCount (.keep x :: es) = keptCount es + 1 :=
  List.countP_cons_of_pos rfl

@[simp] theorem keptCount_delete (x : α) (es : List (Edit α)) :
    keptCount (.delete x :: es) = keptCount es := by
  simp [keptCount, Edit.isKeep]

@[simp] theorem keptCount_insert (x : α) (es : List (Edit α)) :
    keptCount (.insert x :: es) = keptCount es := by
  simp [keptCount, Edit.isKeep]

theorem length_add_keptCount (edits : List (Edit α)) :
    edits.length + keptCount edits = (source edits).length + (target edits).length := by
  induction edits with
  | nil => rfl
  | cons e edits ih => cases e <;> simp <;> omega

theorem keptCount_le_source (edits : List (Edit α)) : keptCount edits ≤ (source edits).length := by
  induction edits with
  | nil => exact Nat.le_refl 0
  | cons e edits ih => cases e <;> simp <;> omega

theorem keptCount_le_target (edits : List (Edit α)) : keptCount edits ≤ (target edits).length := by
  induction edits with
  | nil => exact Nat.le_refl 0
  | cons e edits ih => cases e <;> simp <;> omega

/-- Without the first element of the target a script loses at most one element that it keeps. -/
theorem exists_without_target (htarget : target edits = y :: ys) :
    ∃ fewer, source fewer = source edits ∧ target fewer = ys ∧
      keptCount edits ≤ keptCount fewer + 1 := by
  induction edits with
  | nil => cases htarget
  | cons e edits ih =>
    cases e with
    | keep z =>
      exact ⟨.delete z :: edits, by simp, (List.cons.inj htarget).2, by simp⟩
    | insert z => exact ⟨edits, by simp, (List.cons.inj htarget).2, by simp⟩
    | delete z =>
      obtain ⟨fewer, hsource, hfewer, hkept⟩ := ih htarget
      exact ⟨.delete z :: fewer, by simp [hsource], by simp [hfewer], by simpa using hkept⟩

theorem exists_without_source (hsource : source edits = x :: xs) :
    ∃ fewer, source fewer = xs ∧ target fewer = target edits ∧
      keptCount edits ≤ keptCount fewer + 1 := by
  induction edits with
  | nil => cases hsource
  | cons e edits ih =>
    cases e with
    | keep z =>
      exact ⟨.insert z :: edits, (List.cons.inj hsource).2, by simp, by simp⟩
    | delete z => exact ⟨edits, (List.cons.inj hsource).2, by simp, by simp⟩
    | insert z =>
      obtain ⟨fewer, hfewer, htarget, hkept⟩ := ih hsource
      exact ⟨.insert z :: fewer, by simp [hfewer], by simp [htarget], by simpa using hkept⟩

/-- No script between the lists keeps more than `n` elements. -/
def KeepsAtMost (xs ys : List α) (n : Nat) : Prop :=
  ∀ edits, source edits = xs → target edits = ys → keptCount edits ≤ n

namespace KeepsAtMost
variable {n m : Nat}

theorem mono (h : KeepsAtMost xs ys n) (hle : n ≤ m) : KeepsAtMost xs ys m :=
  fun edits hsource htarget => Nat.le_trans (h edits hsource htarget) hle

theorem nil_source (ys : List α) : KeepsAtMost [] ys 0 := fun edits hsource _ => by
  simpa [hsource] using keptCount_le_source edits

theorem nil_target (xs : List α) : KeepsAtMost xs [] 0 := fun edits _ htarget => by
  simpa [htarget] using keptCount_le_target edits

theorem without_target (h : KeepsAtMost xs ys n) (y : α) : KeepsAtMost xs (y :: ys) (n + 1) := by
  intro edits hsource htarget
  obtain ⟨fewer, hfewer, hys, hkept⟩ := exists_without_target htarget
  exact Nat.le_trans hkept (Nat.succ_le_succ (h fewer (hfewer.trans hsource) hys))

theorem without_source (h : KeepsAtMost xs ys n) (x : α) : KeepsAtMost (x :: xs) ys (n + 1) := by
  intro edits hsource htarget
  obtain ⟨fewer, hxs, hfewer, hkept⟩ := exists_without_source hsource
  exact Nat.le_trans hkept (Nat.succ_le_succ (h fewer hxs (hfewer.trans htarget)))

/-- A script begins by keeping an element that both lists begin with, by deleting, or by
inserting. -/
theorem cons (hkeep : x = y → ∃ k < n, KeepsAtMost xs ys k)
    (hdelete : KeepsAtMost xs (y :: ys) n) (hinsert : KeepsAtMost (x :: xs) ys n) :
    KeepsAtMost (x :: xs) (y :: ys) n := by
  intro edits hsource htarget
  match edits with
  | [] => cases hsource
  | .keep z :: edits =>
    obtain ⟨rfl, hxs⟩ := List.cons.inj hsource
    obtain ⟨rfl, hys⟩ := List.cons.inj htarget
    obtain ⟨k, hk, hmost⟩ := hkeep rfl
    rw [keptCount_keep]
    exact Nat.lt_of_le_of_lt (hmost edits hxs hys) hk
  | .delete z :: edits =>
    rw [keptCount_delete]
    exact hdelete edits (List.cons.inj hsource).2 htarget
  | .insert z :: edits =>
    rw [keptCount_insert]
    exact hinsert edits hsource (List.cons.inj htarget).2

end KeepsAtMost

structure Plan.Best (xs ys : List α) (p : Plan α) : Prop where
  kept_eq : p.kept = keptCount p.edits
  most : KeepsAtMost xs ys p.kept

def Row.Best (xs : List α) : (ys : List α) → Row ys → Prop
  | [], p => Plan.Best xs [] p
  | y :: ys, row => row.1.Best xs (y :: ys) ∧ Best xs ys row.2

theorem Row.Best.head {row : Row ys} (h : row.Best xs ys) : row.head.Best xs ys := by
  cases ys with
  | nil => exact h
  | cons y ys => exact h.1

theorem Plan.Best.keep {p : Plan α} (h : p.Best xs ys) (x : α) :
    (p.keep x).Best (x :: xs) (x :: ys) where
  kept_eq := by simp [Plan.keep, h.kept_eq]
  most := .cons (fun _ => ⟨p.kept, Nat.lt_succ_self _, h.most⟩) (h.most.without_target x)
    (h.most.without_source x)

theorem Plan.Best.better {p q : Plan α} (hne : x ≠ y) (hp : p.Best xs (y :: ys))
    (hq : q.Best (x :: xs) ys) : ((p.delete x).better (q.insert y)).Best (x :: xs) (y :: ys) := by
  unfold Plan.better
  split
  · next hless =>
    exact ⟨by simpa [Plan.insert] using hq.kept_eq,
      .cons (fun heq => absurd heq hne) (hp.most.mono (Nat.le_of_lt hless)) hq.most⟩
  · next hless =>
    exact ⟨by simpa [Plan.delete] using hp.kept_eq,
      .cons (fun heq => absurd heq hne) hp.most (hq.most.mono (Nat.le_of_not_lt hless))⟩

theorem firstRow_best (ys : List α) : (firstRow ys).Best [] ys := by
  induction ys with
  | nil => exact ⟨rfl, .nil_source []⟩
  | cons y ys ih =>
    have hnone : (firstRow ys).head.kept = 0 := by
      have hle := keptCount_le_source (firstRow ys).head.edits
      rw [(firstRow_sound ys).head.1] at hle
      rw [ih.head.kept_eq, Nat.le_zero.1 hle]
    refine ⟨⟨by simpa [firstRow, Plan.insert] using ih.head.kept_eq, ?_⟩, ih⟩
    simpa [firstRow, Plan.insert, hnone] using KeepsAtMost.nil_source (y :: ys)

variable [DecidableEq α]

theorem nextRow_best (x : α) {row : Row ys} (h : row.Best xs ys) :
    (nextRow x ys row).Best (x :: xs) ys := by
  induction ys with
  | nil =>
    exact ⟨by simpa [nextRow, Plan.delete] using h.kept_eq,
      (KeepsAtMost.nil_target _).mono (Nat.zero_le _)⟩
  | cons y ys ih =>
    obtain ⟨first, below⟩ := row
    obtain ⟨hfirst, hbelow⟩ := h
    have hrest := ih hbelow
    refine ⟨?_, hrest⟩
    simp only [nextRow]
    split
    · next hxy => exact hxy ▸ (Row.Best.head hbelow).keep x
    · next hne => exact hfirst.better hne hrest.head

theorem plans_best (xs ys : List α) : (plans ys xs).Best xs ys := by
  induction xs with
  | nil => exact firstRow_best ys
  | cons x xs ih => exact nextRow_best x ih

theorem script_shortest (hsource : source edits = xs) (htarget : target edits = ys) :
    (script xs ys).length ≤ edits.length := by
  have hbest := (plans_best xs ys).head
  have hmost : keptCount edits ≤ keptCount (script xs ys) :=
    hbest.kept_eq ▸ hbest.most edits hsource htarget
  have hscript := length_add_keptCount (script xs ys)
  rw [source_script, target_script] at hscript
  have hedits := length_add_keptCount edits
  rw [hsource, htarget] at hedits
  omega

end MergeTrial.Diff
