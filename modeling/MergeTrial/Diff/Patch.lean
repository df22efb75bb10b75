import MergeTrial.Diff.Unified

/-! Applying unified diffs: hunks are read from the text and replace the lines that they name. -/

namespace MergeTrial.Diff.Patch

def number? (cs : List Char) : Option Nat :=
  if cs.isEmpty || !cs.all Char.isDigit then none
  else some (cs.foldl (fun n c => n * 10 + (c.toNat - 48)) 0)

def range? (cs : List Char) : Option (Nat × Nat) := do
  let first ← number? (cs.takeWhile (· != ','))
  match cs.dropWhile (· != ',') with
  | [] => return (first - 1, 1)
  | _ :: rest =>
    match ← number? rest with
    | 0 => return (first, 0)
    | length => return (first - 1, length)

def header? (line : String) : Option ((Nat × Nat) × (Nat × Nat)) :=
  match line.toList with
  | '@' :: '@' :: ' ' :: '-' :: rest =>
    let source := rest.takeWhile (· != ' ')
    match rest.dropWhile (· != ' ') with
    | ' ' :: '+' :: rest =>
      let target := rest.takeWhile (· != ' ')
      if rest.dropWhile (· != ' ') = " @@\n".toList then do
        return (← range? source, ← range? target)
      else none
    | _ => none
  | _ => none

def edit? (line : String) : Option (Edit String) :=
  match line.toList with
  | ' ' :: rest => some (.keep (String.ofList rest))
  | '-' :: rest => some (.delete (String.ofList rest))
  | '+' :: rest => some (.insert (String.ofList rest))
  | _ => none

/-- The hunks read so far and the edits of the last one, both the last first, and how many lines
of either side that one still lacks. -/
structure Reading where
  hunks : List (Hunk String)
  lacksSource : Nat
  lacksTarget : Nat

def dropEnding (line : String) : String := String.ofList line.toList.dropLast

def unend : List (Hunk String) → Option (List (Hunk String))
  | [] => none
  | hunk :: rest =>
    match hunk.edits with
    | .keep line :: more => some ({ hunk with edits := .keep (dropEnding line) :: more } :: rest)
    | .delete line :: more =>
      some ({ hunk with edits := .delete (dropEnding line) :: more } :: rest)
    | .insert line :: more =>
      some ({ hunk with edits := .insert (dropEnding line) :: more } :: rest)
    | [] => none

def addEdit (r : Reading) (e : Edit String) : Option Reading :=
  match r.hunks with
  | [] => none
  | hunk :: rest =>
    let fromSource := if e.source?.isSome then 1 else 0
    let fromTarget := if e.target?.isSome then 1 else 0
    if r.lacksSource < fromSource ∨ r.lacksTarget < fromTarget then none
    else some ⟨{ hunk with edits := e :: hunk.edits } :: rest, r.lacksSource - fromSource,
      r.lacksTarget - fromTarget⟩

def readLine (r : Reading) (line : String) : Option Reading :=
  if line.toList.head? = some '\\' then (unend r.hunks).map fun hunks => { r with hunks := hunks }
  else if r.lacksSource = 0 ∧ r.lacksTarget = 0 then
    (header? line).map fun ranges =>
      ⟨⟨ranges.1.1, ranges.2.1, []⟩ :: r.hunks, ranges.1.2, ranges.2.2⟩
  else (edit? line).bind (addEdit r)

def body : List String → List String
  | first :: second :: rest =>
    if "--- ".toList.isPrefixOf first.toList && "+++ ".toList.isPrefixOf second.toList then rest
    else first :: second :: rest
  | ls => ls

def hunks? (text : String) : Option (List (Hunk String)) := do
  let r ← (body (lines text)).foldlM readLine ⟨[], 0, 0⟩
  guard (r.lacksSource = 0 ∧ r.lacksTarget = 0)
  return r.hunks.reverse.map fun hunk => { hunk with edits := hunk.edits.reverse }

/-- Applies hunks to the lines that follow the first `passed` ones; `made` counts the lines of the
result before them. -/
def applyFrom (passed made : Nat) : List (Hunk String) → List String → Option (List String)
  | [], rest => some rest
  | hunk :: more, rest =>
    let skipped := hunk.sourceStart - passed
    let here := rest.drop skipped
    let before := source hunk.edits
    if passed ≤ hunk.sourceStart ∧ skipped ≤ rest.length ∧ made + skipped = hunk.targetStart
        ∧ before.isPrefixOf here then
      (applyFrom (hunk.sourceStart + before.length)
        (hunk.targetStart + (target hunk.edits).length) more (here.drop before.length)).map
          fun result => rest.take skipped ++ target hunk.edits ++ result
    else none

def patched? (diff text : String) : Option String := do
  return String.join (← applyFrom 0 0 (← hunks? diff) (lines text))

end MergeTrial.Diff.Patch
