/-! Aligning two sequences: which elements of either one have no partner in the other. A shortest
way from one sequence to the other is searched from both ends until the searches meet, the two
halves are aligned in the same way, and blocks of changes are then moved to where they are shown.
Main definition: `Alignment.hunks`. -/

namespace MergeTrial.Shell

/-- Elements that take the place of others: the first position and the number of each. -/
structure Hunk where
  left : Nat
  removed : Nat
  right : Nat
  added : Nat
  deriving DecidableEq, Inhabited

namespace Alignment

/-- The sequences, with a number for each class of equal elements. -/
structure Pair where
  xs : Array Nat
  ys : Array Nat

namespace Pair

def agree (p : Pair) (x y : Int) : Bool :=
  0 ≤ x && 0 ≤ y && match p.xs[x.toNat]?, p.ys[y.toNat]? with
    | some a, some b => a == b
    | _, _ => false

end Pair

structure Region where
  x0 : Int
  x1 : Int
  y0 : Int
  y1 : Int

/-- How far a search has got on each diagonal between two of them. -/
structure Front where
  reach : Array Int
  low : Int
  high : Int

namespace Front

def index (p : Pair) (d : Int) : Nat := (d + p.ys.size + 1).toNat

def get (p : Pair) (f : Front) (d : Int) : Int := f.reach.getD (index p d) 0

def set (p : Pair) (f : Front) (d x : Int) : Front :=
  { f with reach := f.reach.setIfInBounds (index p d) x }

def start (p : Pair) (d x : Int) : Front :=
  set p ⟨Array.replicate (p.xs.size + p.ys.size + 3) 0, d, d⟩ d x

def widen (p : Pair) (r : Region) (edge : Int) (f : Front) : Front :=
  let f := if r.x0 - r.y1 < f.low then { set p f (f.low - 2) edge with low := f.low - 1 }
    else { f with low := f.low + 1 }
  if f.high < r.x1 - r.y0 then { set p f (f.high + 2) edge with high := f.high + 1 }
  else { f with high := f.high - 1 }

def diagonals (f : Front) : List Int :=
  (List.range ((f.high - f.low).toNat / 2 + 1)).map fun (i : Nat) => f.high - 2 * (i : Int)

end Front

def forward (p : Pair) (r : Region) (d : Int) : Nat → Int → Int
  | 0, x => x
  | n + 1, x =>
    if x < r.x1 && x - d < r.y1 && p.agree x (x - d) then forward p r d n (x + 1) else x

def backward (p : Pair) (r : Region) (d : Int) : Nat → Int → Int
  | 0, x => x
  | n + 1, x =>
    if r.x0 < x && r.y0 < x - d && p.agree (x - 1) (x - 1 - d) then backward p r d n (x - 1)
    else x

def beyond (p : Pair) : Int := (p.xs.size : Int) + p.ys.size + 10

def extend (p : Pair) (step : Front → Int → Int) (meets : Int → Int → Bool) :
    List Int → Front → Front × Option (Int × Int)
  | [], f => (f, none)
  | d :: rest, f =>
    let x := step f d
    let f := f.set p d x
    if meets d x then (f, some (x, x - d)) else extend p step meets rest f

def middle (p : Pair) (r : Region) : Nat → Front → Front → Int × Int
  | 0, _, _ => (r.x0, r.y0)
  | n + 1, top, bottom =>
    let odd := (r.x0 - r.y0 - (r.x1 - r.y1)) % 2 != 0
    let size := p.xs.size + p.ys.size + 1
    let top := top.widen p r (-1)
    let down (f : Front) (d : Int) : Int :=
      let low := f.get p (d - 1)
      let high := f.get p (d + 1)
      forward p r d size (if low < high then high else low + 1)
    let met (d x : Int) : Bool :=
      odd && bottom.low ≤ d && d ≤ bottom.high && bottom.get p d ≤ x
    let (top, found) := extend p down met top.diagonals top
    match found with
    | some point => point
    | none =>
      let bottom := bottom.widen p r (beyond p)
      let up (f : Front) (d : Int) : Int :=
        let low := f.get p (d - 1)
        let high := f.get p (d + 1)
        backward p r d size (if low < high then low else high - 1)
      let met (d x : Int) : Bool :=
        !odd && top.low ≤ d && d ≤ top.high && x ≤ top.get p d
      let (bottom, found) := extend p up met bottom.diagonals bottom
      match found with
      | some point => point
      | none => middle p r n top bottom

structure Marks where
  left : Array Bool
  right : Array Bool

def mark (flags : Array Bool) (first last : Int) : Array Bool :=
  (List.range (last - first).toNat).foldl
    (fun flags i => flags.setIfInBounds (first.toNat + i) true) flags

def align (p : Pair) : Nat → Region → Marks → Marks
  | 0, _, m => m
  | n + 1, r, m =>
    let size := p.xs.size + p.ys.size + 1
    let x0 := forward p r (r.x0 - r.y0) size r.x0
    let r : Region := { r with x0 := x0, y0 := r.y0 + (x0 - r.x0) }
    let x1 := backward p r (r.x1 - r.y1) size r.x1
    let r : Region := { r with x1 := x1, y1 := r.y1 - (r.x1 - x1) }
    if r.x0 = r.x1 then { m with right := mark m.right r.y0 r.y1 }
    else if r.y0 = r.y1 then { m with left := mark m.left r.x0 r.x1 }
    else
      let top := Front.start p (r.x0 - r.y0) r.x0
      let bottom := Front.start p (r.x1 - r.y1) r.x1
      let (x, y) := middle p r size top bottom
      align p n { r with x0 := x, y0 := y } (align p n { r with x1 := x, y1 := y } m)

def marksOf (p : Pair) : Marks :=
  let kept (these others : Array Nat) : List (Nat × Nat) :=
    these.toList.zipIdx.filter fun entry => others.contains entry.1
  let xs := kept p.xs p.ys
  let ys := kept p.ys p.xs
  let inner : Pair := ⟨(xs.map Prod.fst).toArray, (ys.map Prod.fst).toArray⟩
  let region : Region := ⟨0, inner.xs.size, 0, inner.ys.size⟩
  let m := align inner (inner.xs.size + inner.ys.size + 2) region
    ⟨Array.replicate inner.xs.size false, Array.replicate inner.ys.size false⟩
  let whole (size : Nat) (kept : List (Nat × Nat)) (flags : Array Bool) : Array Bool :=
    kept.zipIdx.foldl (fun all entry => all.setIfInBounds entry.1.2 (flags.getD entry.2 false))
      (Array.replicate size true)
  ⟨whole p.xs.size xs m.left, whole p.ys.size ys m.right⟩

/-! Moving blocks of changes -/

/-- A block of changes on one side, and the position on the other side at its end. -/
structure Block where
  flags : Array Bool
  start : Nat
  finish : Nat
  other : Nat
  partner : Nat

def isSet (flags : Array Bool) (i : Nat) : Bool := flags.getD i false

def after (flags : Array Bool) : Nat → Nat → Nat
  | 0, i => i
  | n + 1, i => if isSet flags i then after flags n (i + 1) else i

def before (flags : Array Bool) : Nat → Nat
  | 0 => 0
  | i + 1 => if isSet flags i then before flags i else i + 1

def back (flags : Array Bool) : Nat → Nat
  | 0 => 0
  | i + 1 => if isSet flags i then back flags i else i

def moveUp (classes : Array Nat) (others : Array Bool) : Nat → Block → Block
  | 0, b => b
  | n + 1, b =>
    if 0 < b.start && classes.getD (b.start - 1) 0 == classes.getD (b.finish - 1) 0 then
      let flags := (b.flags.setIfInBounds (b.start - 1) true).setIfInBounds (b.finish - 1) false
      moveUp classes others n { b with
        flags := flags
        start := before flags (b.start - 1)
        finish := b.finish - 1
        other := back others b.other }
    else b

def moveDown (classes : Array Nat) (others : Array Bool) : Nat → Block → Block
  | 0, b => b
  | n + 1, b =>
    if b.finish < classes.size
        && classes.getD b.start 0 == classes.getD b.finish 0 then
      let flags := (b.flags.setIfInBounds b.start false).setIfInBounds b.finish true
      let finish := after flags flags.size (b.finish + 1)
      let other := after others others.size (b.other + 1)
      moveDown classes others n { b with
        flags := flags
        start := b.start + 1
        finish := finish
        other := other
        partner := if b.other + 1 < other then finish else b.partner }
    else b

def settle (classes : Array Nat) (others : Array Bool) : Nat → Block → Block
  | 0, b => b
  | n + 1, b =>
    let size := classes.size + 1
    let up := moveUp classes others size b
    let paired := 0 < up.other && isSet others (up.other - 1)
    let up := { up with partner := if paired then up.finish else classes.size }
    let down := moveDown classes others size up
    if down.finish - down.start = b.finish - b.start then down
    else settle classes others n down

def rejoin (others : Array Bool) : Nat → Block → Block
  | 0, b => b
  | n + 1, b =>
    if b.partner < b.finish && 0 < b.start then
      rejoin others n { b with
        flags := (b.flags.setIfInBounds (b.start - 1) true).setIfInBounds (b.finish - 1) false
        start := b.start - 1
        finish := b.finish - 1
        other := back others b.other }
    else b

def moveBlocks (classes : Array Nat) (others : Array Bool) :
    Nat → Nat → Nat → Array Bool → Array Bool
  | 0, _, _, flags => flags
  | n + 1, i, j, flags =>
    if flags.size ≤ i then flags
    else if !isSet flags i then
      moveBlocks classes others n (i + 1) (after others others.size j + 1) flags
    else
      let block : Block :=
        ⟨flags, i, after flags flags.size i, after others others.size j, classes.size⟩
      let size := classes.size + 1
      let b := rejoin others size (settle classes others size block)
      moveBlocks classes others n b.finish b.other b.flags

def moved (p : Pair) (m : Marks) : Marks :=
  let left := moveBlocks p.xs m.right (p.xs.size + 1) 0 0 m.left
  let right := moveBlocks p.ys left (p.ys.size + 1) 0 0 m.right
  ⟨left, right⟩

def hunksFrom (m : Marks) : Nat → Nat → Nat → List Hunk
  | 0, _, _ => []
  | n + 1, i, j =>
    let i1 := after m.left m.left.size i
    let j1 := after m.right m.right.size j
    if i < i1 || j < j1 then ⟨i, i1 - i, j, j1 - j⟩ :: hunksFrom m n i1 j1
    else if i < m.left.size then hunksFrom m n (i + 1) (j + 1)
    else []

def hunksOf (p : Pair) : List Hunk :=
  hunksFrom (moved p (marksOf p)) (p.xs.size + p.ys.size + 2) 0 0

def classesOf {α : Type} [BEq α] (distinct : List α) (elements : List α) : Array Nat :=
  (elements.map fun x => distinct.idxOf x).toArray

def commonLength {α : Type} [BEq α] : List α → List α → Nat
  | x :: xs, y :: ys => if x == y then commonLength xs ys + 1 else 0
  | _, _ => 0

/-- The changes that lead from one sequence to another. Of what is equal at their ends, all but
`horizon` elements on either side are left out of account. -/
def hunks {α : Type} [BEq α] (horizon : Nat) (xs ys : List α) : List Hunk :=
  let start := commonLength xs ys - horizon
  let xs := xs.drop start
  let ys := ys.drop start
  let inner := commonLength xs ys
  let tail := commonLength (xs.drop inner).reverse (ys.drop inner).reverse - horizon
  let xs := xs.take (xs.length - tail)
  let ys := ys.take (ys.length - tail)
  let distinct := (xs ++ ys).eraseDups
  (hunksOf ⟨classesOf distinct xs, classesOf distinct ys⟩).map fun h =>
    { h with left := h.left + start, right := h.right + start }

end Alignment
end MergeTrial.Shell
