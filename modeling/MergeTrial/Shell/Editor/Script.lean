import MergeTrial.Regex.Basic
import MergeTrial.Shell.Raw

/-! Scripts that edit a text line by line. An instruction works on the line at hand if that is one
of those that it is for. -/

namespace MergeTrial.Shell.Editor

structure Form where
  regex : Regex
  fold : Bool

inductive Address where
  | line (number : Nat)
  | step (first gap : Nat)
  | last
  | matching (form : Option Form)

/-- The last line of a range. -/
inductive Limit where
  | at (address : Address)
  | after (count : Nat)
  | multiple (factor : Nat)

inductive Extent where
  | all
  | one (address : Address)
  | range (first : Address) (last : Limit)

inductive Case where
  | kept
  | lower
  | upper
  deriving DecidableEq

/-- What happens to the case of a text: to all of it, and to its first character if that is to be
treated in another way. -/
structure Shift where
  all : Case
  first : Case
  deriving DecidableEq

/-- A text and a group after it, with what happens to their case. -/
structure Piece where
  text : Raw
  group : Option Nat
  shift : Shift

inductive Target where
  | output
  | errors
  | file (path : Raw)
  deriving DecidableEq

structure Substitution where
  form : Option Form
  replacement : List Piece
  first : Nat
  everywhere : Bool
  prints : Bool
  evaluates : Bool
  target : Option Target

inductive Action where
  | block (finish : Nat)
  | append (text : Raw)
  | insert (text : Raw)
  | change (text : Raw)
  | jump (label : Raw)
  | jumpIf (label : Raw)
  | jumpUnless (label : Raw)
  | delete
  | deleteFirst
  | execute (command : Raw)
  | showName
  | recall
  | recallMore
  | hold
  | holdMore
  | exchange
  | list (width : Option Nat)
  | next
  | nextMore
  | print
  | printFirst
  | number
  | quit (status : Nat)
  | leave (status : Nat)
  | read (path : Raw)
  | readLine (path : Raw)
  | write (target : Target)
  | writeFirst (target : Target)
  | substitute (substitution : Substitution)
  | exchangeChars (pairs : List (Char × Char))
  | clear

structure Instruction where
  extent : Extent
  negated : Bool
  action : Action

structure Script where
  instructions : Array Instruction
  labels : List (Raw × Nat)
  targets : List Raw
  silent : Bool

namespace Script

def placeOf (s : Script) (label : Raw) : Nat :=
  if label.isEmpty then s.instructions.size
  else (s.labels.lookup label).getD s.instructions.size

end Script
end MergeTrial.Shell.Editor
