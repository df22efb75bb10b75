import MergeTrial.Binary

/-! Shares of a whole: exact fractions, the nearest double, and percentages with one digit. -/

namespace MergeTrial

/-- A part of a whole that is not empty. -/
structure Share where
  part : Nat
  whole : Nat
  whole_pos : 0 < whole
  deriving DecidableEq

namespace Share

def of? (part whole : Nat) : Option Share := if h : 0 < whole then some ⟨part, whole, h⟩ else none

def toBinary (s : Share) : Binary := .nearest s.part s.whole

def percent (s : Share) : String :=
  let tenths := (s.toBinary.scaleBy 100).tenths
  toString (tenths / 10) ++ "." ++ toString (tenths % 10) ++ "%"

theorem of?_eq_none_iff {part whole : Nat} : of? part whole = none ↔ whole = 0 := by
  simp only [of?]
  split <;> simp <;> omega

end Share
end MergeTrial
