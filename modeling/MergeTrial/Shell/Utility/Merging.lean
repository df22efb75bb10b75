import MergeTrial.Shell.Utility.Comparing

/-! The program that compares three files, and merges them. Two of the files are compared with the
third one, and changes that overlap there make up one block. -/

namespace MergeTrial.Shell.Utility
open Work

namespace Threeway

/-- A stretch of lines: the first and, before its end, the number of lines. -/
structure Stretch where
  first : Nat
  count : Nat
  deriving DecidableEq, Inhabited

def Stretch.finish (s : Stretch) : Nat := s.first + s.count

/-- Lines of three texts that correspond to each other; the last ones are of the text that the
others are compared with. -/
structure Block where
  one : Stretch
  two : Stretch
  shared : Stretch
  deriving Inhabited

structure Gathered where
  ones : List Hunk
  twos : List Hunk
  finish : Nat

def gather : Nat → Gathered → List Hunk → List Hunk → Gathered × List Hunk × List Hunk
  | 0, g, ones, twos => (g, ones, twos)
  | n + 1, g, ones, twos =>
    match ones.head?.filter (fun h => h.right ≤ g.finish),
      twos.head?.filter (fun h => h.right ≤ g.finish) with
    | some h, _ =>
      gather n { g with ones := g.ones ++ [h], finish := max g.finish (h.right + h.added) }
        (ones.drop 1) twos
    | none, some h =>
      gather n { g with twos := g.twos ++ [h], finish := max g.finish (h.right + h.added) }
        ones (twos.drop 1)
    | none, none => (g, ones, twos)

def side (hunks : List Hunk) (shared : Stretch) (ahead : Int) : Stretch :=
  match hunks.head?, hunks.getLast? with
  | some first, some last =>
    let start := first.left - (first.right - shared.first)
    let finish := last.left + last.removed + (shared.finish - (last.right + last.added))
    ⟨start, finish - start⟩
  | _, _ => ⟨((shared.first : Int) + ahead).toNat, shared.count⟩

def blocks : Nat → Int → Int → List Hunk → List Hunk → List Block
  | 0, _, _, _, _ => []
  | n + 1, aheadOne, aheadTwo, ones, twos =>
    let start : Option (Nat × Nat) := match ones.head?, twos.head? with
      | none, none => none
      | some h, none | none, some h => some (h.right, h.right + h.added)
      | some h, some k =>
        if k.right < h.right then some (k.right, k.right + k.added)
        else some (h.right, h.right + h.added)
    match start with
    | none => []
    | some (first, finish) =>
      let (g, ones, twos) := gather (ones.length + twos.length) ⟨[], [], finish⟩ ones twos
      let shared : Stretch := ⟨first, g.finish - first⟩
      let one := side g.ones shared aheadOne
      let two := side g.twos shared aheadTwo
      ⟨one, two, shared⟩ :: blocks n ((one.finish : Int) - shared.finish)
        ((two.finish : Int) - shared.finish) ones twos

def linesIn (lines : List Raw) (s : Stretch) : List Raw := (lines.drop s.first).take s.count

/-- Which of the texts is not like the two others in a block. -/
inductive Odd where
  | one
  | two
  | shared
  | none
  deriving DecidableEq

structure Comparison where
  one : List Raw
  two : List Raw
  shared : List Raw
  blocks : List Block

namespace Comparison

def ofTexts (one two shared : List Raw) : Comparison :=
  let ones := Alignment.hunks 100 one shared
  let twos := Alignment.hunks 100 two shared
  ⟨one, two, shared, Threeway.blocks (ones.length + twos.length + 1) 0 0 ones twos⟩

def odd (c : Comparison) (b : Block) : Odd :=
  let one := linesIn c.one b.one
  let two := linesIn c.two b.two
  let shared := linesIn c.shared b.shared
  if two = shared then .one else if one = shared then .two else if one = two then .shared
  else .none

end Comparison

def shownRange (s : Stretch) : Raw :=
  if s.count = 0 then Raw.ofString s!"{s.first}a"
  else if s.count = 1 then Raw.ofString s!"{s.first + 1}c"
  else Raw.ofString s!"{s.first + 1},{s.finish}c"

def report (c : Comparison) (lead : Raw) (b : Block) : Raw :=
  let odd := c.odd b
  let mark := match odd with
    | .one => "1"
    | .two => "2"
    | .shared => "3"
    | .none => ""
  let part (digit : Char) (lines : List Raw) (s : Stretch) (hides : Bool) : Raw :=
    let shown := if hides then [] else
      (linesIn lines s).flatMap fun line => lead ++ line
        ++ (if line.getLast? = some '\n' then [] else "\n\\ No newline at end of file\n".toList)
    digit :: ':' :: shownRange s ++ '\n' :: shown
  let first := part '1' c.one b.one (odd = .two ∨ odd = .shared)
  let second := part '2' c.two b.two (odd = .one)
  let third := part '3' c.shared b.shared false
  "====".toList ++ mark.toList ++ ['\n'] ++ first
    ++ (if odd = .two then third ++ second else second ++ third)

/-- How a merge treats blocks: whether conflicts are flagged and show the older lines, and which
blocks are left out. -/
structure Manner where
  flagging : Bool
  showsOlder : Bool
  overlapsOnly : Bool
  simpleOnly : Bool
  labels : Raw × Raw × Raw

/-- A merged text, and whether there are conflicts in it. -/
structure Merged where
  text : Raw
  conflicts : Bool

def flag (mark : String) (label : Raw) : Raw := mark.toList ++ ' ' :: label ++ ['\n']

def mergedBlock (c : Comparison) (m : Manner) (b : Block) : Option Merged :=
  let one := (linesIn c.one b.one).flatten
  let two := (linesIn c.two b.two).flatten
  let older := (linesIn c.shared b.shared).flatten
  let closing := "=======\n".toList ++ two ++ flag ">>>>>>>" m.labels.2.2
  match c.odd b with
  | .one => none
  | .two => if m.overlapsOnly then none else some ⟨two, false⟩
  | .shared =>
    if m.showsOlder then some ⟨flag "<<<<<<<" m.labels.2.1 ++ older ++ closing, true⟩ else none
  | .none =>
    if m.simpleOnly then none
    else if m.flagging then
      let middle := if m.showsOlder then flag "|||||||" m.labels.2.1 ++ older else []
      some ⟨flag "<<<<<<<" m.labels.1 ++ one ++ middle ++ closing, true⟩
    else some ⟨two, false⟩

def mergeFrom (c : Comparison) (m : Manner) : Nat → List Block → Merged
  | place, [] => ⟨(c.one.drop place).flatten, false⟩
  | place, b :: rest =>
    match mergedBlock c m b with
    | none => mergeFrom c m place rest
    | some merged =>
      let after := mergeFrom c m b.one.finish rest
      ⟨((c.one.drop place).take (b.one.first - place)).flatten ++ merged.text ++ after.text,
        merged.conflicts || after.conflicts⟩

def flags : List Flag :=
  [.plain 'A' ["show-all"], .plain 'e' ["ed"], .plain 'E' ["show-overlap"],
    .plain '3' ["easy-only"], .plain 'x' ["overlap-only"], .plain 'X' [], .plain 'i' [],
    .plain 'm' ["merge"], .plain 'a' ["text"], .long 'R' .nothing "strip-trailing-cr",
    .plain 'T' ["initial-tab"], .valued 'L' ["label"]]

def withoutReturns (line : Raw) : Raw :=
  match line.reverse with
  | '\n' :: '\r' :: rest => ('\n' :: rest).reverse
  | _ => line

def canCompare : Work Bool := do
  let m ← Work.machine
  let dirs := searchDirs (← valueOf? "PATH".toList)
  return dirs.any fun dir => m.hasExecutable (dir.join (Bytes.ofString "diff"))

end Threeway

def diff3 : Work Unit := do
  let program ← name
  let bad {α : Type} (message : Raw) : Work α := do
    complain message
    complain ("Try '".toList ++ program ++ " --help' for more information.".toList)
    exit 2
  let a ← match Arguments.read Threeway.flags false (← args) with
    | .ok a => pure a
    | .error message => bad message
  let kinds := a.options.filter fun option => "AeExX3".toList.contains option.1
  let merges := a.has 'm'
  let flagging := a.has 'A' || a.has 'E' || (kinds.isEmpty && merges)
  let labels := a.values 'L'
  if 1 < kinds.length || (a.has 'i' && merges) || (!labels.isEmpty && !flagging) then
    bad "incompatible options".toList
  else if 3 < labels.length then failWith 2 "too many file label options".toList
  match a.operands with
  | [mine, older, yours] =>
    let machine ← Work.machine
    match [mine, older, yours].find? fun path =>
        path ≠ ['-'] && machine.hasDir (Raw.toBytes path) with
    | some dir => failWith 2 ("diff failed: ".toList ++ dir ++ ": Is a directory".toList)
    | none => pure ()
    if !(← Threeway.canCompare) then
      failWith 2 "subsidiary program 'diff' could not be invoked".toList
    let read (path : Raw) : Work (List Raw) := do
      match ← readOperand path with
      | .ok text =>
        let lines := Linewise.linesOf text
        return if a.has 'R' then lines.map Threeway.withoutReturns else lines
      | .error fault => do
        let _ ← write 2 ("diff: ".toList ++ path ++ Raw.ofString (": " ++ fault.reason ++ "\n"))
        failWith 2 "subsidiary program 'diff' failed (exit status 2)".toList
    let (one, two, shared) ← if merges || !kinds.isEmpty then do
        let second ← read yours
        pure (← read mine, second, ← read older)
      else do
        let second ← read older
        pure (← read mine, second, ← read yours)
    let c := Threeway.Comparison.ofTexts one two shared
    if merges then
      let m : Threeway.Manner :=
        { flagging := flagging
          showsOlder := a.has 'A' || kinds.isEmpty
          overlapsOnly := a.has 'x' || a.has 'X'
          simpleOnly := a.has '3'
          labels := (labels[0]?.getD mine, labels[1]?.getD older, labels[2]?.getD yours) }
      let merged := Threeway.mergeFrom c m 0 c.blocks
      say merged.text
      if merged.conflicts then exit 1
    else if kinds.isEmpty then
      let lead := if a.has 'T' then ['\t'] else [' ', ' ']
      say (c.blocks.flatMap (Threeway.report c lead))
  | [] => bad ("missing operand after ".toList ++ quoted ((← args).getLastD program))
  | _ :: _ :: _ :: extra :: _ => bad ("extra operand ".toList ++ quoted extra)
  | operands => bad ("missing operand after ".toList ++ quoted (operands.getLastD program))

end MergeTrial.Shell.Utility
