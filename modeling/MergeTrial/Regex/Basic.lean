/-! Regular expressions with groups and back references, and where they match. Of all matches the
leftmost counts, and of those the longest. -/

namespace MergeTrial

structure CharSet where
  ranges : List (Char × Char)
  negated : Bool
  deriving DecidableEq, Inhabited

namespace CharSet

def single (c : Char) : CharSet := ⟨[(c, c)], false⟩

def all : CharSet := ⟨[], true⟩

def contains (s : CharSet) (c : Char) : Bool :=
  (s.ranges.any fun range => range.1 ≤ c && c ≤ range.2) != s.negated

def matches? (fold : Bool) (s : CharSet) (c : Char) : Bool :=
  if fold then
    let inRange (d : Char) : Bool := s.ranges.any fun range => range.1 ≤ d && d ≤ range.2
    (inRange c.toLower || inRange c.toUpper) != s.negated
  else s.contains c

end CharSet

inductive Anchor where
  | start
  | finish
  | lineStart
  | lineFinish
  | wordStart
  | wordEnd
  | boundary
  | inside
  deriving DecidableEq, Inhabited

inductive Regex where
  | empty
  | one (set : CharSet)
  | seq (first second : Regex)
  | alt (first second : Regex)
  | times (body : Regex) (least : Nat) (most : Option Nat)
  | group (index : Nat) (body : Regex)
  | back (index : Nat)
  | assert (kind : Anchor)
  deriving DecidableEq, Inhabited

namespace Regex

/-- A text to search, and whether case matters in it. -/
structure Subject where
  chars : Array Char
  fold : Bool

/-- How far a match has come, and what its groups took, the latest first. -/
structure Cursor where
  place : Nat
  groups : List (Nat × Nat × Nat)
  deriving DecidableEq, Inhabited

namespace Subject

def isWord (c : Char) : Bool := c.isAlphanum || c == '_'

def wordAt (s : Subject) (place : Nat) : Bool := (s.chars[place]?).any isWord

def wordBefore (s : Subject) (place : Nat) : Bool := 0 < place && s.wordAt (place - 1)

def holds (s : Subject) (place : Nat) : Anchor → Bool
  | .start => place == 0
  | .finish => place == s.chars.size
  | .lineStart => place == 0 || s.chars[place - 1]? == some '\n'
  | .lineFinish => place == s.chars.size || s.chars[place]? == some '\n'
  | .wordStart => s.wordAt place && !s.wordBefore place
  | .wordEnd => s.wordBefore place && !s.wordAt place
  | .boundary => s.wordAt place != s.wordBefore place
  | .inside => s.wordAt place == s.wordBefore place

def repeats (s : Subject) (place first length : Nat) : Bool :=
  place + length ≤ s.chars.size && (List.range length).all fun i =>
    let a := s.chars.getD (first + i) ' '
    let b := s.chars.getD (place + i) ' '
    a == b || (s.fold && a.toLower == b.toLower)

end Subject

def firstOfEach : List Cursor → List Cursor
  | [] => []
  | c :: rest => c :: (firstOfEach rest).filter (·.place != c.place)

def iterate (step : Cursor → List Cursor) : Nat → Nat → Option Nat → List Cursor → List Cursor
  | 0, _, _, _ => []
  | _, _, _, [] => []
  | fuel + 1, least, most, reached =>
    let here := if least = 0 then reached else []
    if most = some 0 then here
    else
      let next := firstOfEach (reached.flatMap fun c =>
        (step c).filter fun d => least != 0 || d.place != c.place)
      iterate step fuel (least - 1) (most.map (· - 1)) next ++ here

def ends (s : Subject) : Regex → Cursor → List Cursor
  | .empty, c => [c]
  | .one set, c =>
    match s.chars[c.place]? with
    | some char => if set.matches? s.fold char then [{ c with place := c.place + 1 }] else []
    | none => []
  | .seq a b, c => firstOfEach ((ends s a c).flatMap (ends s b))
  | .alt a b, c => firstOfEach (ends s a c ++ ends s b c)
  | .times body least most, c =>
    firstOfEach (iterate (ends s body) (s.chars.size + least + 2) least most [c])
  | .group index body, c =>
    (ends s body c).map fun d => { d with groups := (index, c.place, d.place) :: d.groups }
  | .back index, c =>
    match c.groups.lookup index with
    | some (first, last) =>
      if s.repeats c.place first (last - first) then
        [{ c with place := c.place + (last - first) }]
      else []
    | none => []
  | .assert kind, c => if s.holds c.place kind then [c] else []

def matchAt? (r : Regex) (s : Subject) (start : Nat) : Option Cursor :=
  (ends s r ⟨start, []⟩).foldl
    (fun best c => if best.all fun b => b.place < c.place then some c else best) none

def find? (r : Regex) (s : Subject) (start : Nat) : Option (Nat × Cursor) :=
  (List.range (s.chars.size + 1 - start)).findSome? fun i =>
    (r.matchAt? s (start + i)).map fun c => (start + i, c)

def matchesWhole (r : Regex) (fold : Bool) (text : List Char) : Bool :=
  let s : Subject := ⟨text.toArray, fold⟩
  (ends s r ⟨0, []⟩).any fun c => c.place == s.chars.size

end Regex
end MergeTrial
