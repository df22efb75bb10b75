import MergeTrial.Shell.Alignment
import MergeTrial.Shell.Utility.Options
import MergeTrial.Shell.Utility.Words

/-! Programs that compare two files. -/

namespace MergeTrial.Shell.Utility
open Work

/-! The first byte that differs -/

namespace Bytewise

def visible (c : Char) : Raw :=
  let low (n : Nat) : Raw :=
    if n < 32 then ['^', Char.ofNat (n + 64)]
    else if n = 127 then ['^', '?']
    else [Char.ofNat n]
  if 128 ≤ c.toNat then 'M' :: '-' :: low (c.toNat - 128) else low c.toNat

def octal (c : Char) : Raw := Raw.padStart 3 (Nat.toDigits 8 c.toNat)

/-- A place in two texts: how many characters and lines come before it, and what is left. -/
structure Place where
  offset : Nat
  line : Nat
  first : Raw
  second : Raw

def difference (offset line : Nat) : Raw → Raw → Place
  | c :: r, d :: s =>
    if c = d then difference (offset + 1) (if c = '\n' then line + 1 else line) r s
    else ⟨offset, line, c :: r, d :: s⟩
  | r, s => ⟨offset, line, r, s⟩

def differences : Nat → Raw → Raw → List (Nat × Char × Char)
  | offset, c :: r, d :: s =>
    if c = d then differences (offset + 1) r s else (offset, c, d) :: differences (offset + 1) r s
  | _, _, _ => []

structure Task where
  names : Raw × Raw
  texts : Raw × Raw
  showsBytes : Bool

def ending (t : Task) (listing : Bool) : Work Unit := do
  let (r, s) := t.texts
  if r.length ≠ s.length then
    let (name, short) := if r.length < s.length then (t.names.1, r) else (t.names.2, s)
    let lines := short.count '\n'
    let place := if short.isEmpty then " which is empty"
      else if listing then s!" after byte {short.length}"
      else if short.getLast? = some '\n' then s!" after byte {short.length}, line {lines}"
      else s!" after byte {short.length}, in line {lines + 1}"
    let _ ← write 2 ("cmp: EOF on ".toList ++ name ++ Raw.ofString (place ++ "\n"))
    exit 1

def list (t : Task) : Work Unit := do
  let (r, s) := t.texts
  let found := differences 0 r s
  let width := (toString (min r.length s.length)).length
  found.forM fun entry => do
    let (offset, c, d) := entry
    let number := Raw.padStart width (Raw.ofNat (offset + 1))
    let parts := if t.showsBytes then
        [number, octal c, Raw.padEnd 4 (visible c), octal d, visible d]
      else [number, octal c, octal d]
    sayLine (Raw.join [' '] parts)
  ending t true
  if !found.isEmpty then exit 1

def first (t : Task) : Work Unit := do
  let place := difference 0 1 t.texts.1 t.texts.2
  match place.first, place.second with
  | c :: _, d :: _ =>
    let unit := if t.showsBytes then "byte" else "char"
    let bytes := if t.showsBytes then
        " is ".toList ++ Raw.join [' '] [octal c, visible c, octal d, visible d]
      else []
    sayLine (t.names.1 ++ [' '] ++ t.names.2
      ++ Raw.ofString (s!" differ: " ++ unit ++ s!" {place.offset + 1}, line {place.line}")
      ++ bytes)
    exit 1
  | _, _ => ending t false

end Bytewise

def skips? (text : Raw) : Option (Nat × Nat) := do
  match Raw.splitOn ':' text with
  | [one] => return (← Raw.nat? one, ← Raw.nat? one)
  | [one, two] => return (← Raw.nat? one, ← Raw.nat? two)
  | _ => none

def cmp : Work Unit := do
  let program ← name
  let bad {α : Type} (message : Raw) : Work α := do
    complain message
    complain ("Try '".toList ++ program ++ " --help' for more information.".toList)
    exit 2
  let flags : List Flag :=
    [.plain 's' ["quiet", "silent"], .plain 'l' ["verbose"], .plain 'b' ["print-bytes"],
      .valued 'i' ["ignore-initial"], .valued 'n' ["bytes"]]
  let a ← match Arguments.read flags false (← args) with
    | .ok a => pure a
    | .error message => bad message
  if a.has 's' ∧ a.has 'l' then bad "options -l and -s are incompatible".toList
  let number (option : String) (text : Raw) : Work Nat := do
    match Raw.nat? text with
    | some n => return n
    | none => bad (Raw.ofString s!"invalid --{option} value " ++ quoted text)
  let limit ← (a.value? 'n').mapM (number "bytes")
  let skip ← match a.value? 'i' with
    | none => pure (0, 0)
    | some text =>
      match skips? text with
      | some skips => pure skips
      | none => bad ("invalid --ignore-initial value ".toList ++ quoted text)
  let (one, two, extra) ← match a.operands with
    | [] => bad ("missing operand after ".toList ++ quoted program)
    | [one] => pure (one, ['-'], [])
    | one :: two :: extra => pure (one, two, extra)
  let skip ← match extra with
    | [] => pure skip
    | [m] => pure (← number "ignore-initial" m, skip.2)
    | m :: n :: _ => pure (← number "ignore-initial" m, ← number "ignore-initial" n)
  let read (path : Raw) : Work Raw := do
    match ← readOperand path with
    | .ok text => return text
    | .error fault =>
      if !a.has 's' then complain (path ++ Raw.ofString (": " ++ fault.reason))
      exit 2
  let first ← read one
  let second ← if one = two ∧ one = ['-'] then pure first else read two
  let cut (n : Nat) (text : Raw) : Raw :=
    let rest := text.drop n
    (limit.map rest.take).getD rest
  let texts := (cut skip.1 first, cut skip.2 second)
  if a.has 's' then exit (if texts.1 = texts.2 then 0 else 1)
  else if a.has 'l' then Bytewise.list ⟨(one, two), texts, a.has 'b'⟩
  else Bytewise.first ⟨(one, two), texts, a.has 'b'⟩

/-! Lines that differ -/

namespace Linewise

inductive Style where
  | plain
  | brief
  | unified
  | context
  deriving DecidableEq

structure Manner where
  style : Style
  around : Nat
  arguments : Arguments

def linesOf (text : Raw) : List Raw :=
  let (lines, ended) := Raw.lines text
  match lines.reverse with
  | [] => []
  | last :: rest =>
    (rest.reverse.map (· ++ ['\n'])) ++ [if ended then last ++ ['\n'] else last]

def squeeze : Raw → Raw
  | [] => []
  | c :: rest =>
    let rest := squeeze rest
    if Raw.isSpace c then
      match rest with
      | [] => []
      | ' ' :: _ => rest
      | _ => ' ' :: rest
    else c :: rest

def expandTabs : Nat → Raw → Raw
  | _, [] => []
  | column, '\t' :: rest =>
    let next := (column / 8 + 1) * 8
    List.replicate (next - column) ' ' ++ expandTabs next rest
  | column, c :: rest => c :: expandTabs (column + 1) rest

def Manner.key (m : Manner) (line : Raw) : Raw :=
  let has (c : Char) : Bool := m.arguments.has c
  let trimmed (r : Raw) : Raw := (r.reverse.dropWhile Raw.isSpace).reverse
  let line := if has 'R' then
      match line.reverse with
      | '\n' :: '\r' :: rest => ('\n' :: rest).reverse
      | _ => line
    else line
  let line := if has 'E' then expandTabs 0 line else line
  let line := if has 'w' then line.filter (!Raw.isSpace ·)
    else if has 'b' then squeeze line
    else if has 'Z' then trimmed line
    else line
  if has 'i' then Raw.lower line else line

def Manner.ignores (m : Manner) (left right : List Raw) (h : Hunk) : Bool :=
  m.arguments.has 'B'
    && ((left.drop h.left).take h.removed ++ (right.drop h.right).take h.added).all
      fun line => line.all fun c => if m.arguments.has 'w' then Raw.isSpace c else c == '\n'

def marked (mark : Raw) (lines : List Raw) : Raw :=
  lines.flatMap fun line =>
    let note := if line.getLast? = some '\n' then [] else "\n\\ No newline at end of file\n".toList
    mark ++ line ++ note

def range (first count : Nat) : Raw :=
  if count = 0 then Raw.ofNat first
  else if count = 1 then Raw.ofNat (first + 1)
  else Raw.ofString s!"{first + 1},{first + count}"

def stretch (lines : List Raw) (first last : Nat) : List Raw := (lines.drop first).take (last - first)

def plainHunk (left right : List Raw) (h : Hunk) : Raw :=
  let kind := if h.removed = 0 then 'a' else if h.added = 0 then 'd' else 'c'
  range h.left h.removed ++ kind :: range h.right h.added ++ ['\n']
    ++ marked "< ".toList (stretch left h.left (h.left + h.removed))
    ++ (if kind = 'c' then "---\n".toList else [])
    ++ marked "> ".toList (stretch right h.right (h.right + h.added))

/-- Groups of changes with few lines between them. Fewer are needed before one that counts for
nothing. -/
def group (around : Nat) (ignored : Hunk → Bool) : List Hunk → List (List Hunk)
  | [] => []
  | h :: rest =>
    match group around ignored rest with
    | [] => [[h]]
    | [] :: more => [h] :: more
    | (next :: others) :: more =>
      let gap := next.left - (h.left + h.removed)
      if gap < (if ignored next then around else 2 * around + 1) then
        (h :: next :: others) :: more
      else [h] :: (next :: others) :: more

/-- The stretches of both texts that a group is shown with: their first and last positions. -/
structure Window where
  left0 : Nat
  left1 : Nat
  right0 : Nat
  right1 : Nat

def window (around : Nat) (left right : List Raw) (hunks : List Hunk) : Window :=
  let first := hunks.headD default
  let last := hunks.getLastD default
  let lead := min around (min first.left first.right)
  let leftEnd := last.left + last.removed
  let rightEnd := last.right + last.added
  { left0 := first.left - lead
    left1 := min left.length (leftEnd + around)
    right0 := first.right - lead
    right1 := min right.length (rightEnd + around) }

def unifiedRange (first last : Nat) : Raw :=
  if last ≤ first then Raw.ofString s!"{first},0"
  else if last = first + 1 then Raw.ofNat last
  else Raw.ofString s!"{first + 1},{last - first}"

def unifiedLines (left right : List Raw) (place finish : Nat) : List Hunk → Raw
  | [] => marked [' '] (stretch left place finish)
  | h :: rest =>
    marked [' '] (stretch left place h.left)
      ++ marked ['-'] (stretch left h.left (h.left + h.removed))
      ++ marked ['+'] (stretch right h.right (h.right + h.added))
      ++ unifiedLines left right (h.left + h.removed) finish rest

def unifiedGroup (around : Nat) (left right : List Raw) (hunks : List Hunk) : Raw :=
  let w := window around left right hunks
  "@@ -".toList ++ unifiedRange w.left0 w.left1 ++ " +".toList ++ unifiedRange w.right0 w.right1
    ++ " @@\n".toList ++ unifiedLines left right w.left0 w.left1 hunks

def contextRange (first last : Nat) : Raw :=
  if last ≤ first + 1 then Raw.ofNat last else Raw.ofString s!"{first + 1},{last}"

def contextLines (lines : List Raw) (finish : Nat) : Nat → List (Nat × Nat × Raw) → Raw
  | place, [] => marked "  ".toList (stretch lines place finish)
  | place, (start, count, mark) :: rest =>
    marked "  ".toList (stretch lines place start)
      ++ marked mark (stretch lines start (start + count))
      ++ contextLines lines finish (start + count) rest

def contextGroup (around : Nat) (left right : List Raw) (hunks : List Hunk) : Raw :=
  let w := window around left right hunks
  let mark (single : Char) (h : Hunk) : Raw :=
    [if h.removed = 0 ∨ h.added = 0 then single else '!', ' ']
  let old := hunks.map fun h => (h.left, h.removed, mark '-' h)
  let new := hunks.map fun h => (h.right, h.added, mark '+' h)
  let shown (lines : List Raw) (first last : Nat) (parts : List (Nat × Nat × Raw)) : Raw :=
    if parts.all fun part => part.2.1 == 0 then [] else contextLines lines last first parts
  "***************\n*** ".toList ++ contextRange w.left0 w.left1 ++ " ****\n".toList
    ++ shown left w.left0 w.left1 old
    ++ "--- ".toList ++ contextRange w.right0 w.right1 ++ " ----\n".toList
    ++ shown right w.right0 w.right1 new

def heading (m : Manner) (index : Nat) (name : Raw) : Raw :=
  ((m.arguments.values 'L')[index]?).getD
    (name ++ "\t1970-01-01 00:00:00.000000000 +0000".toList)

def differences (m : Manner) (names : Raw × Raw) (left right : List Raw) : Raw :=
  let horizon := if m.style = .plain then 0 else m.around
  let hunks := Alignment.hunks horizon (left.map m.key) (right.map m.key)
  let ignored := m.ignores left right
  let around := m.around
  match m.style with
  | .plain | .brief => (hunks.filter (!ignored ·)).flatMap (plainHunk left right)
  | .unified =>
    let groups := (group around ignored hunks).filter fun g => !g.all ignored
    if groups.isEmpty then []
    else "--- ".toList ++ heading m 0 names.1 ++ "\n+++ ".toList ++ heading m 1 names.2 ++ ['\n']
      ++ groups.flatMap (unifiedGroup around left right)
  | .context =>
    let groups := (group around ignored hunks).filter fun g => !g.all ignored
    if groups.isEmpty then []
    else "*** ".toList ++ heading m 0 names.1 ++ "\n--- ".toList ++ heading m 1 names.2 ++ ['\n']
      ++ groups.flatMap (contextGroup around left right)

def compareTexts (m : Manner) (lead : Raw) (names : Raw × Raw) (first second : Raw) :
    Work Bool := do
  let isBinary := !m.arguments.has 'a' && (first.contains '\x00' || second.contains '\x00')
  let isSame := first == second
  if isBinary ∧ !isSame then
    let verb := if m.style = .brief then "Files " else "Binary files "
    sayLine (Raw.ofString verb ++ names.1 ++ " and ".toList ++ names.2 ++ " differ".toList)
    return true
  else
    let text := if isSame then [] else
      differences m names (linesOf first) (linesOf second)
    if text.isEmpty then
      if m.arguments.has 's' then
        sayLine ("Files ".toList ++ names.1 ++ " and ".toList ++ names.2
          ++ " are identical".toList)
      return false
    else
      if m.style = .brief then
        sayLine ("Files ".toList ++ names.1 ++ " and ".toList ++ names.2 ++ " differ".toList)
      else say (lead ++ text)
      return true

def readSide (m : Manner) (path : Raw) : Work (Except FileFault Raw) := do
  match ← readOperand path with
  | .error .missing =>
    return if m.arguments.has 'N' then .ok [] else .error .missing
  | result => return result

def comparePaths (m : Manner) (options : Raw) : Nat → Bool → Raw → Raw → Work Nat
  | 0, _, _, _ => return 2
  | n + 1, isTop, one, two => do
    let machine ← Work.machine
    let isDir (path : Raw) : Bool := path != ['-'] && machine.hasDir (Raw.toBytes path)
    let inside (dir path : Raw) : Raw :=
      Raw.ofBytes (Path.join (Raw.toBytes dir) (Raw.toBytes (baseName path)))
    let child (dir name : Raw) : Raw := Raw.ofBytes (Path.join (Raw.toBytes dir) (Raw.toBytes name))
    match isDir one, isDir two with
    | true, true =>
      if !isTop ∧ !m.arguments.has 'r' then
        sayLine ("Common subdirectories: ".toList ++ one ++ " and ".toList ++ two)
        return 0
      else
        let names (path : Raw) : List Raw :=
          ((machine.node? (Raw.toBytes path)).map fun node =>
            node.entries.map fun entry => Raw.ofBytes entry.1).getD []
        let first := names one
        let second := names two
        let all := (first ++ second.filter (!first.contains ·)).mergeSort Raw.le
        all.foldlM (fun status name => do
          let only (dir : Raw) : Work Nat := do
            sayLine ("Only in ".toList ++ dir ++ ": ".toList ++ name)
            return max status 1
          if !second.contains name ∧ !m.arguments.has 'N' then only one
          else if !first.contains name ∧ !m.arguments.has 'N' then only two
          else
            return max status
              (← comparePaths m options n false (child one name) (child two name))) 0
    | true, false =>
      if isTop then comparePaths m options n false (inside one two) two
      else
        sayLine ("File ".toList ++ one ++ " is a directory while file ".toList ++ two
          ++ " is a regular file".toList)
        return 1
    | false, true =>
      if isTop then comparePaths m options n false one (inside two one)
      else
        sayLine ("File ".toList ++ one ++ " is a regular file while file ".toList ++ two
          ++ " is a directory".toList)
        return 1
    | false, false =>
      let first ← readSide m one
      let second ← if one = two then pure first else readSide m two
      match first, second with
      | .ok first, .ok second =>
        let lead := if options.isEmpty ∨ m.style = .brief then []
          else options ++ [' '] ++ one ++ [' '] ++ two ++ ['\n']
        return if ← compareTexts m lead (one, two) first second then 1 else 0
      | first, second =>
        let report (path : Raw) : Except FileFault Raw → Work Unit
          | .error fault => complain (path ++ Raw.ofString (": " ++ fault.reason))
          | .ok _ => pure ()
        report one first
        if one ≠ two then report two second
        return 2

def flags : List Flag :=
  [.plain 'q' ["brief"], .plain 's' ["report-identical-files"], .plain 'c' [],
    ⟨'C', .value, ["context"], true⟩, .plain 'u' [], ⟨'U', .value, ["unified"], true⟩,
    .long 'X' .nothing "normal", .plain 'i' ["ignore-case"], .plain 'w' ["ignore-all-space"],
    .plain 'b' ["ignore-space-change"], .plain 'B' ["ignore-blank-lines"],
    .plain 'Z' ["ignore-trailing-space"], .plain 'E' ["ignore-tab-expansion"],
    .long 'R' .nothing "strip-trailing-cr", .plain 'a' ["text"], .plain 'r' ["recursive"],
    .plain 'N' ["new-file"], .valued 'L' ["label"], .plain 'd' ["minimal"],
    .plain 't' ["expand-tabs"], .plain 'T' ["initial-tab"], .plain 'p' ["show-c-function"],
    .long 'O' .maybe "color", .valued 'x' ["exclude"], .valued 'H' ["horizon-lines"]]

end Linewise

def diff : Work Unit := do
  let program ← name
  let bad {α : Type} (message : Raw) : Work α := do
    complain message
    complain ("Try '".toList ++ program ++ " --help' for more information.".toList)
    exit 2
  let a ← match Arguments.read Linewise.flags false (← args) with
    | .ok a => pure a
    | .error message => bad message
  let count (text : Raw) : Work Nat := do
    match Raw.nat? text with
    | some n => return n
    | none => bad ("invalid context length ".toList ++ quoted text)
  let letter := a.lastOf "cCuUX"
  let style : Linewise.Style := if a.has 'q' then .brief
    else match letter with
      | some 'c' | some 'C' => .context
      | some 'u' | some 'U' => .unified
      | _ => .plain
  let around ← match letter with
    | some 'C' => count ((a.value? 'C').getD [])
    | some 'U' => count ((a.value? 'U').getD [])
    | _ => pure 3
  match a.operands with
  | [one, two] =>
    let m : Linewise.Manner := ⟨style, around, a⟩
    let given := (← args).filter fun word => word.head? = some '-' ∧ word ≠ ['-']
    let machine ← Work.machine
    let both := [one, two].all fun path => machine.hasDir (Raw.toBytes path)
    let options := if both then Raw.join [' '] (program :: given) else []
    let status ← Linewise.comparePaths m options 64 true one two
    exit status
  | [] => bad ("missing operand after ".toList ++ quoted ((← args).getLastD program))
  | [one] => bad ("missing operand after ".toList ++ quoted one)
  | _ :: _ :: extra :: _ => bad ("extra operand ".toList ++ quoted extra)

end MergeTrial.Shell.Utility
