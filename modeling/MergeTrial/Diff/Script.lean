/-! Shortest edit scripts between two lists. Main statements: a script starts from the first list
and ends in the second. -/

namespace MergeTrial.Diff
variable {α : Type}

inductive Edit (α : Type) where
  | keep (x : α)
  | delete (x : α)
  | insert (x : α)
  deriving DecidableEq

namespace Edit

def source? : Edit α → Option α
  | .keep x | .delete x => some x
  | .insert _ => none

def target? : Edit α → Option α
  | .keep x | .insert x => some x
  | .delete _ => none

end Edit

def source (edits : List (Edit α)) : List α := edits.filterMap Edit.source?

def target (edits : List (Edit α)) : List α := edits.filterMap Edit.target?

@[simp] theorem source_keep (x : α) (es : List (Edit α)) :
    source (.keep x :: es) = x :: source es := rfl

@[simp] theorem source_delete (x : α) (es : List (Edit α)) :
    source (.delete x :: es) = x :: source es := rfl

@[simp] theorem source_insert (x : α) (es : List (Edit α)) :
    source (.insert x :: es) = source es := rfl

@[simp] theorem target_keep (x : α) (es : List (Edit α)) :
    target (.keep x :: es) = x :: target es := rfl

@[simp] theorem target_delete (x : α) (es : List (Edit α)) :
    target (.delete x :: es) = target es := rfl

@[simp] theorem target_insert (x : α) (es : List (Edit α)) :
    target (.insert x :: es) = x :: target es := rfl

structure Plan (α : Type) where
  kept : Nat
  edits : List (Edit α)

namespace Plan

def nil : Plan α := ⟨0, []⟩

def keep (p : Plan α) (x : α) : Plan α := ⟨p.kept + 1, .keep x :: p.edits⟩

def delete (p : Plan α) (x : α) : Plan α := ⟨p.kept, .delete x :: p.edits⟩

def insert (p : Plan α) (x : α) : Plan α := ⟨p.kept, .insert x :: p.edits⟩

def better (p q : Plan α) : Plan α := if p.kept < q.kept then q else p

end Plan

def Row : List α → Type
  | [] => Plan α
  | _ :: ys => Plan α × Row ys

def Row.head : {ys : List α} → Row ys → Plan α
  | [], p => p
  | _ :: _, row => row.1

def firstRow : (ys : List α) → Row ys
  | [] => Plan.nil
  | y :: ys =>
    let rest := firstRow ys
    (rest.head.insert y, rest)

variable [DecidableEq α]

def nextRow (x : α) : (ys : List α) → Row ys → Row ys
  | [], p => Plan.delete p x
  | y :: ys, (first, below) =>
    let rest := nextRow x ys below
    let best :=
      if x = y then below.head.keep x else (first.delete x).better (rest.head.insert y)
    (best, rest)

def plans (ys : List α) : List α → Row ys
  | [] => firstRow ys
  | x :: xs => nextRow x ys (plans ys xs)

def script (xs ys : List α) : List (Edit α) := (plans ys xs).head.edits

omit [DecidableEq α]

def Row.Sound (xs : List α) : (ys : List α) → Row ys → Prop
  | [], p => source (Plan.edits p) = xs ∧ target (Plan.edits p) = []
  | y :: ys, row => (source row.1.edits = xs ∧ target row.1.edits = y :: ys) ∧ Sound xs ys row.2

theorem Row.Sound.head {xs ys : List α} {row : Row ys} (h : row.Sound xs ys) :
    source row.head.edits = xs ∧ target row.head.edits = ys := by
  cases ys with
  | nil => exact h
  | cons y ys => exact h.1

theorem firstRow_sound (ys : List α) : (firstRow ys).Sound [] ys := by
  induction ys with
  | nil => exact ⟨rfl, rfl⟩
  | cons y ys ih =>
    exact ⟨⟨by simpa [firstRow, Plan.insert] using ih.head.1,
      by simpa [firstRow, Plan.insert] using ih.head.2⟩, ih⟩

variable [DecidableEq α]

theorem nextRow_sound (x : α) {xs ys : List α} {row : Row ys} (h : row.Sound xs ys) :
    (nextRow x ys row).Sound (x :: xs) ys := by
  induction ys with
  | nil =>
    exact ⟨by simpa [nextRow, Plan.delete] using h.1, by simpa [nextRow, Plan.delete] using h.2⟩
  | cons y ys ih =>
    obtain ⟨first, below⟩ := row
    obtain ⟨⟨hs, ht⟩, hbelow⟩ := h
    have hrest := ih hbelow
    refine ⟨?_, hrest⟩
    simp only [nextRow]
    split
    · next hxy => simp [Plan.keep, Row.Sound.head hbelow, hxy]
    · simp only [Plan.better]
      split
      · simp [Plan.insert, hrest.head]
      · exact ⟨by simpa [Plan.delete] using hs, by simpa [Plan.delete] using ht⟩

theorem plans_sound (xs ys : List α) : (plans ys xs).Sound xs ys := by
  induction xs with
  | nil => exact firstRow_sound ys
  | cons x xs ih => exact nextRow_sound x ih

theorem source_script (xs ys : List α) : source (script xs ys) = xs := (plans_sound xs ys).head.1

theorem target_script (xs ys : List α) : target (script xs ys) = ys := (plans_sound xs ys).head.2

end MergeTrial.Diff
