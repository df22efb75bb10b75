import MergeTrial.Diff.Lines
import MergeTrial.Diff.Script

/-! Unified diffs: the changes of a script in hunks, with lines of context around them. -/

namespace MergeTrial.Diff
variable {α : Type}

/-- Unchanged elements, then those removed and those added before the next unchanged one. -/
structure Block (α : Type) where
  kept : List α
  deleted : List α
  inserted : List α

namespace Block

def changes (b : Block α) : List (Edit α) :=
  b.deleted.map .delete ++ b.inserted.map .insert

end Block

def blocksFrom (b : Block α) : List (Edit α) → List (Block α) × List α
  | [] =>
    if b.deleted.isEmpty && b.inserted.isEmpty then ([], b.kept) else ([b], [])
  | .keep x :: rest =>
    if b.deleted.isEmpty && b.inserted.isEmpty then
      blocksFrom { b with kept := b.kept ++ [x] } rest
    else
      let more := blocksFrom ⟨[x], [], []⟩ rest
      (b :: more.1, more.2)
  | .delete x :: rest => blocksFrom { b with deleted := b.deleted ++ [x] } rest
  | .insert x :: rest => blocksFrom { b with inserted := b.inserted ++ [x] } rest

def blocks (edits : List (Edit α)) : List (Block α) × List α := blocksFrom ⟨[], [], []⟩ edits

/-- A stretch of a script and how many elements precede it on either side. -/
structure Hunk (α : Type) where
  sourceStart : Nat
  targetStart : Nat
  edits : List (Edit α)

def contextRadius : Nat := 3

def lastContext (kept : List α) : List α := kept.drop (kept.length - contextRadius)

def openHunk (source target : Nat) (b : Block α) : Hunk α :=
  let context := lastContext b.kept
  let skipped := b.kept.length - context.length
  ⟨source + skipped, target + skipped, context.map .keep ++ b.changes⟩

def hunksFrom (current : Hunk α) (source target : Nat) :
    List (Block α) → List α → List (Hunk α)
  | [], rest =>
    [{ current with edits := current.edits ++ (rest.take contextRadius).map .keep }]
  | b :: more, rest =>
    let source' := source + b.kept.length + b.deleted.length
    let target' := target + b.kept.length + b.inserted.length
    if b.kept.length ≤ 2 * contextRadius then
      hunksFrom { current with edits := current.edits ++ (b.kept.map .keep ++ b.changes) }
        source' target' more rest
    else
      { current with edits := current.edits ++ (b.kept.take contextRadius).map .keep }
        :: hunksFrom (openHunk source target b) source' target' more rest

def hunks (edits : List (Edit α)) : List (Hunk α) :=
  match blocks edits with
  | ([], _) => []
  | (b :: more, rest) =>
    hunksFrom (openHunk 0 0 b) (b.kept.length + b.deleted.length)
      (b.kept.length + b.inserted.length) more rest

/-- A range of lines: its first line and its length, which is left out when it is one. The range
of no lines starts at the line before it. -/
def rangeText (start length : Nat) : String :=
  if length = 1 then toString (start + 1)
  else if length = 0 then toString start ++ ",0"
  else toString (start + 1) ++ "," ++ toString length

def noEnding : String := "\n\\ No newline at end of file\n"

def lineText (sign line : String) : String :=
  sign ++ line ++ (if isEnded line then "" else noEnding)

def editText : Edit String → String
  | .keep line => lineText " " line
  | .delete line => lineText "-" line
  | .insert line => lineText "+" line

def hunkText (h : Hunk String) : String :=
  "@@ -" ++ rangeText h.sourceStart (source h.edits).length
    ++ " +" ++ rangeText h.targetStart (target h.edits).length ++ " @@\n"
    ++ String.join (h.edits.map editText)

def unified (sourceName targetName before after : String) : String :=
  match hunks (script (lines before) (lines after)) with
  | [] => ""
  | hs => "--- " ++ sourceName ++ "\n+++ " ++ targetName ++ "\n" ++ String.join (hs.map hunkText)

end MergeTrial.Diff
