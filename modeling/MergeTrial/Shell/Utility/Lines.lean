import MergeTrial.Shell.Print
import MergeTrial.Shell.Utility.Options

/-! Programs that print what they read: whole, in parts, or counted. -/

namespace MergeTrial.Shell.Utility
open Work

def orInput (operands : List Raw) : List Raw := if operands.isEmpty then [['-']] else operands

def eachText (operands : List Raw) (use : Raw → Raw → Work Unit) : Work Unit :=
  forEach operands fun operand => do
    match ← readOperand operand with
    | .ok text =>
      use operand text
      return true
    | .error fault =>
      refuse operand fault
      return false

def linesOf (text : Raw) : List Raw :=
  let (lines, ended) := Raw.lines text
  match ended, lines.reverse with
  | true, _ => lines.map (· ++ ['\n'])
  | false, last :: rest => (rest.reverse.map (· ++ ['\n'])) ++ [last]
  | false, [] => []

def bare (line : Raw) : Raw := if line.getLast? == some '\n' then line.dropLast else line

/-! Copying the input -/

def visible (tabs : Bool) (c : Char) : Raw :=
  let low (n : Nat) : Raw :=
    if n < 32 then ['^', Char.ofNat (n + 64)] else if n = 127 then ['^', '?'] else [Char.ofNat n]
  if c = '\n' ∨ (c = '\t' ∧ !tabs) then [c]
  else if c.toNat < 128 then low c.toNat
  else 'M' :: '-' :: low (c.toNat - 128)

structure CatForm where
  numbered : Bool
  nonBlank : Bool
  squeeze : Bool
  ends : Bool
  tabs : Bool
  controls : Bool

/-- What `cat` has got to: the number of the last line, how many empty lines came last, and whether
a line is under way. -/
structure CatState where
  number : Nat
  empties : Nat
  inside : Bool

def CatForm.line (f : CatForm) (s : CatState) (line : Raw) : Raw × CatState :=
  let isEmpty := !s.inside && line == ['\n']
  let empties := if isEmpty then s.empties + 1 else 0
  if f.squeeze && 1 < empties then ([], { s with empties := empties })
  else
    let counts := !s.inside && (if f.nonBlank then !isEmpty else f.numbered)
    let number := if counts then s.number + 1 else s.number
    let lead := if counts then Raw.padStart 6 (Raw.ofNat number) ++ ['\t'] else []
    let show' (c : Char) : Raw :=
      if c = '\n' then (if f.ends then ['$', '\n'] else ['\n'])
      else if c = '\t' then (if f.tabs then ['^', 'I'] else ['\t'])
      else if f.controls then visible f.tabs c
      else [c]
    (lead ++ line.flatMap show', ⟨number, empties, line.getLast? != some '\n'⟩)

def CatForm.text (f : CatForm) (s : CatState) (text : Raw) : Raw × CatState :=
  (linesOf text).foldl (fun state line =>
    let (shown, next) := f.line state.2 line
    (state.1 ++ shown, next)) ([], s)

def cat : Work Unit := do
  let a ← arguments [.plain 'A' ["show-all"], .plain 'b' ["number-nonblank"], .plain 'e' [],
    .plain 'E' ["show-ends"], .plain 'n' ["number"], .plain 's' ["squeeze-blank"], .plain 't' [],
    .plain 'T' ["show-tabs"], .plain 'u' [], .plain 'v' ["show-nonprinting"]] false 1
  let form : CatForm := ⟨a.has 'n', a.has 'b', a.has 's', a.has 'E' || a.has 'A' || a.has 'e',
    a.has 'T' || a.has 'A' || a.has 't', a.has 'v' || a.has 'A' || a.has 'e' || a.has 't'⟩
  if (← stream? 1).isNone then
    failWith 1 (Raw.ofString ("standard output: " ++ FileFault.badDescriptor.reason))
  let step (state : CatState × Bool) (operand : Raw) : Work (CatState × Bool) := do
    let overlap ← overlap? operand
    match ← readOperand operand with
    | .ok text =>
      if overlap.any (0 < ·) then
        complain (shown operand ++ ": input file is output file".toList)
        return (state.1, false)
      let (shown, next) := form.text state.1 text
      say shown
      return (next, state.2)
    | .error fault =>
      refuse operand fault
      return (state.1, false)
  let (_, succeeded) ← (orInput a.operands).foldlM step (⟨0, 0, false⟩, true)
  if !succeeded then exit 1

/-! The first and the last part -/

/-- How many lines or characters, and from which end. -/
structure Amount where
  ofLines : Bool
  count : Nat
  signed : Bool

def unit? (text : Raw) : Option Nat :=
  match String.ofList text with
  | "" => some 1
  | "b" => some 512
  | "kB" | "KB" => some 1000
  | "k" | "K" | "KiB" => some 1024
  | "MB" => some 1000000
  | "m" | "M" | "MiB" => some 1048576
  | "GB" => some 1000000000
  | "G" | "GiB" => some 1073741824
  | _ => none

def size? (text : Raw) : Option Nat := do
  let digits := text.takeWhile Char.isDigit
  guard (!digits.isEmpty)
  return Raw.ofDigits digits * (← unit? (text.drop digits.length))

def amount (ofLines : Bool) (sign : Char) (text : Raw) : Work Amount := do
  let signed := text.head? == some sign
  let plain := match text with
    | c :: rest => if c = '-' ∨ c = '+' then rest else text
    | [] => text
  match size? plain with
  | some n => return ⟨ofLines, n, signed⟩
  | none =>
    failWith 1 (("invalid number of " ++ (if ofLines then "lines" else "bytes") ++ ": ").toList
      ++ quoted text)

def takeLines (n : Nat) (text : Raw) : Raw := ((linesOf text).take n).flatten

def dropLines (n : Nat) (text : Raw) : Raw := ((linesOf text).drop n).flatten

def Amount.head (amount : Amount) (text : Raw) : Raw :=
  match amount.ofLines, amount.signed with
  | true, false => takeLines amount.count text
  | true, true => takeLines ((linesOf text).length - amount.count) text
  | false, false => text.take amount.count
  | false, true => text.take (text.length - amount.count)

def Amount.tail (amount : Amount) (text : Raw) : Raw :=
  match amount.ofLines, amount.signed with
  | true, false => dropLines ((linesOf text).length - amount.count) text
  | true, true => dropLines (amount.count - 1) text
  | false, false => text.drop (text.length - amount.count)
  | false, true => text.drop (amount.count - 1)

def oldAmount (signs : String) : List Raw → List Raw
  | (sign :: digits) :: rest =>
    let units := digits.dropWhile Char.isDigit
    if signs.toList.contains sign ∧ (digits.head?).any Char.isDigit
        ∧ (units = [] ∨ units = ['c'] ∨ units = ['l']) then
      let letter := if units = ['c'] then 'c' else 'n'
      let number := digits.takeWhile Char.isDigit
      ['-', letter] :: (if sign = '+' then '+' :: number else number) :: rest
    else (sign :: digits) :: rest
  | args => args

def partFlags : List Flag :=
  [.valued 'n' ["lines"], .valued 'c' ["bytes"], .plain 'q' ["quiet", "silent"],
    .plain 'v' ["verbose"], .plain 'z' ["zero-terminated"]]

def argumentsOf (flags : List Flag) (args : List Raw) : Work Arguments := do
  match Arguments.read flags false args with
  | .ok arguments => return arguments
  | .error message => misuse 1 message

def amountOf (sign : Char) (a : Arguments) : Work Amount :=
  match a.options.reverse.find? fun option => option.1 == 'n' || option.1 == 'c' with
  | some (letter, text) => amount (letter == 'n') sign text
  | none => return ⟨true, 10, false⟩

def parts (a : Arguments) (part : Raw → Raw) : Work Unit := do
  let operands := orInput a.operands
  let titled := a.has 'v' || (1 < operands.length && !a.has 'q')
  let step (state : Bool × Bool) (operand : Raw) : Work (Bool × Bool) := do
    let title : Raw := "==> ".toList
      ++ (if operand = ['-'] then "standard input".toList else operand) ++ " <==\n".toList
    let start : Work Unit := do
      if titled then say ((if state.1 then [] else ['\n']) ++ title)
    match ← readOperand operand with
    | .ok text =>
      start
      say (part text)
      return (false, state.2)
    | .error .isDirectory =>
      start
      complain ("error reading ".toList ++ quoted operand ++ ": Is a directory".toList)
      return (false, false)
    | .error fault =>
      complain ("cannot open ".toList ++ quoted operand ++ " for reading: ".toList
        ++ fault.reason.toList)
      return (state.1, false)
  let (_, succeeded) ← operands.foldlM step (true, true)
  if !succeeded then exit 1

def headInput (amount : Amount) : Work Unit := do
  match ← stream? 0 with
  | none => failWith 1 "error reading 'standard input': Bad file descriptor".toList
  | some stream =>
    match ← world (World.pending stream) with
    | .error fault => failWith 1 ("error reading 'standard input': ".toList ++ fault.reason.toList)
    | .ok text =>
      let part := amount.head text
      let isFile : Bool := match ((← world get).streams[stream]?).map Stream.channel with
        | some (.file ..) => true
        | _ => false
      world (World.advance stream (if isFile then part.length else text.length))
      if part.length = text.length then world (World.awaitEnd stream)
      say part

def head : Work Unit := do
  let a ← argumentsOf partFlags (oldAmount "-" (← args))
  let amount ← amountOf '-' a
  if a.operands.isEmpty ∧ !a.has 'v' then headInput amount else parts a amount.head

def tail : Work Unit := do
  let flags := partFlags ++ [.plain 'f' [], .long 'F' .maybe "follow"]
  let a ← argumentsOf flags (oldAmount "-+" (← args))
  let amount ← amountOf '+' a
  if a.has 'f' ∨ a.has 'F' then
    parts a amount.tail
    waitUntil (1 <<< 60)
  else parts a amount.tail

/-! Counting -/

structure Counts where
  lines : Nat
  words : Nat
  chars : Nat
  bytes : Nat
  widest : Nat

namespace Counts

def zero : Counts := ⟨0, 0, 0, 0, 0⟩

def wordCount : Bool → Raw → Nat
  | _, [] => 0
  | inside, c :: rest =>
    if Raw.isSpace c then wordCount false rest
    else (if inside then 0 else 1) + wordCount true rest

def widthAfter (place : Nat) (c : Char) : Nat :=
  if c = '\t' then (place / 8 + 1) * 8
  else if c.toNat < 32 || 127 ≤ c.toNat then place
  else place + 1

def ofText (text : Raw) : Counts where
  lines := text.count '\n'
  words := wordCount false text
  chars := text.length
  bytes := text.length
  widest := (Raw.splitOn '\n' text).foldl (fun most line => max most (line.foldl widthAfter 0)) 0

def add (a b : Counts) : Counts :=
  ⟨a.lines + b.lines, a.words + b.words, a.chars + b.chars, a.bytes + b.bytes,
    max a.widest b.widest⟩

end Counts

def plainSize (operand : Raw) : Work (Option Nat) := do
  let m ← machine
  if operand = ['-'] then
    let w ← world get
    match ← stream? 0 with
    | none => return none
    | some stream =>
      match (w.streams[stream]?).map Stream.channel with
      | some (.file location _) =>
        match m.root.at? location with
        | some (.file content _) => return some content.length
        | _ => return none
      | _ => return none
  else
    match m.node? (Raw.toBytes operand) with
    | some (.file content _) => return some content.length
    | none => return some 0
    | _ => return none

def wc : Work Unit := do
  let a ← arguments [.plain 'l' ["lines"], .plain 'w' ["words"], .plain 'c' ["bytes"],
    .plain 'm' ["chars"], .plain 'L' ["max-line-length"]] false 1
  let given := "lwcmL".toList.any a.has
  let wants (c : Char) : Bool := a.has c || (!given && "lwc".toList.contains c)
  let operands := orInput a.operands
  let sizes ← operands.mapM plainSize
  let columns := ("lwcmL".toList.filter wants).length
  let width := if operands.length = 1 ∧ columns = 1 then 1
    else if sizes.any Option.isNone then 7
    else (Raw.ofNat (sizes.foldl (fun n size => n + size.getD 0) 0)).length
  let line (counts : Counts) (name : Raw) : Raw :=
    let columns := (if wants 'l' then [counts.lines] else [])
      ++ (if wants 'w' then [counts.words] else []) ++ (if wants 'm' then [counts.chars] else [])
      ++ (if wants 'c' then [counts.bytes] else []) ++ (if wants 'L' then [counts.widest] else [])
    Raw.join [' '] (columns.map fun n => Raw.padStart width (Raw.ofNat n))
      ++ (if name.isEmpty then [] else ' ' :: name) ++ ['\n']
  let step (state : Counts × Bool) (operand : Raw) : Work (Counts × Bool) := do
    let name := if a.operands.isEmpty then [] else operand
    match ← readOperand operand with
    | .ok text =>
      let counts := Counts.ofText text
      say (line counts name)
      return (state.1.add counts, state.2)
    | .error fault =>
      refuse operand fault
      if fault = .isDirectory then say (line .zero name)
      return (state.1, false)
  let (total, succeeded) ← operands.foldlM step (.zero, true)
  if 1 < operands.length then say (line total "total".toList)
  if !succeeded then exit 1

/-! Lines in another order or form -/

def tac : Work Unit := do
  let a ← arguments [.plain 'b' ["before"], .plain 'r' ["regex"], .valued 's' ["separator"]] false 1
  forEach (orInput a.operands) fun operand => do
    match ← readOperand operand with
    | .ok text =>
      say (linesOf text).reverse.flatten
      return true
    | .error .isDirectory =>
      complain (shown operand ++ ": read error: Is a directory".toList)
      return false
    | .error fault =>
      complain ("failed to open ".toList ++ quoted operand ++ " for reading: ".toList
        ++ fault.reason.toList)
      return false

def rev : Work Unit := do
  let a ← arguments [] false 1
  eachText (orInput a.operands) fun _ text =>
    say ((linesOf text).flatMap fun line =>
      (bare line).reverse ++ (if line.getLast? == some '\n' then ['\n'] else []))

def nl : Work Unit := do
  let a ← arguments [.valued 'b' ["body-numbering"], .valued 'w' ["number-width"],
    .valued 's' ["number-separator"], .valued 'v' ["starting-line-number"],
    .valued 'i' ["line-increment"], .valued 'n' ["number-format"]] false 1
  let number (c : Char) (default : Nat) : Nat := ((a.value? c).bind Raw.nat?).getD default
  let width := number 'w' 6
  let sep := (a.value? 's').getD ['\t']
  let form (n : Nat) : Raw := match (a.value? 'n').map String.ofList with
    | some "ln" => Raw.padEnd width (Raw.ofNat n)
    | some "rz" => List.replicate (width - (Raw.ofNat n).length) '0' ++ Raw.ofNat n
    | _ => Raw.padStart width (Raw.ofNat n)
  let counts (line : Raw) : Bool := match a.value? 'b' with
    | some ['a'] => true
    | some ['n'] => false
    | _ => !(bare line).isEmpty
  let step (state : Nat × Raw) (line : Raw) : Nat × Raw :=
    if counts line then (state.1 + number 'i' 1, state.2 ++ form state.1 ++ sep ++ bare line ++ ['\n'])
    else (state.1, state.2 ++ List.replicate (width + sep.length) ' ' ++ bare line ++ ['\n'])
  let texts ← (orInput a.operands).mapM readOperand
  let all := texts.flatMap fun
    | .ok text => linesOf text
    | .error _ => []
  say (all.foldl step (number 'v' 1, [])).2
  if texts.any fun result => !result.isOk then exit 1

def foldLine (width : Nat) (atSpaces : Bool) : Nat → Raw → List Raw
  | 0, line => [line]
  | n + 1, line =>
    if line.length ≤ width then [line]
    else
      let piece := line.take width
      let kept := (piece.reverse.dropWhile fun c => !Raw.isBlank c).reverse
      let piece := if atSpaces && !kept.isEmpty then kept else piece
      piece :: foldLine width atSpaces n (line.drop piece.length)

def fold : Work Unit := do
  let a ← arguments [.valued 'w' ["width"], .plain 's' ["spaces"], .plain 'b' ["bytes"]] false 1
  let width := ((a.value? 'w').bind Raw.nat?).getD 80
  if width = 0 then failWith 1 ("invalid number of columns: ".toList ++ quoted ['0'])
  eachText (orInput a.operands) fun _ text =>
    say ((linesOf text).flatMap fun line =>
      Raw.join ['\n'] (foldLine width (a.has 's') line.length (bare line))
        ++ (if line.getLast? == some '\n' then ['\n'] else []))

def paste : Work Unit := do
  let a ← arguments [.valued 'd' ["delimiters"], .plain 's' ["serial"]] false 1
  let delimiters := match (a.value? 'd').map fun text => (Escape.expand text).1 with
    | some [] | none => ['\t']
    | some cs => cs
  let delimiter (i : Nat) : Char := delimiters.getD (i % delimiters.length) '\t'
  let joined (fields : List Raw) : Raw :=
    match fields with
    | [] => ['\n']
    | first :: rest =>
      first ++ (rest.zipIdx.flatMap fun field => delimiter field.2 :: field.1) ++ ['\n']
  let texts ← (orInput a.operands).mapM fun operand => do
    match ← readOperand operand with
    | .ok text => return (linesOf text).map bare
    | .error fault =>
      refuse operand fault
      exit 1
  if a.has 's' then texts.forM fun lines => say (joined lines)
  else
    let count := texts.foldl (fun n lines => max n lines.length) 0
    (List.range count).forM fun i => say (joined (texts.map fun lines => lines.getD i []))

def tee : Work Unit := do
  let a ← arguments [.plain 'a' ["append"], .plain 'i' ["ignore-interrupts"], .plain 'p' []] false 1
  let table := (← read).process.table
  let files ← a.operands.mapM fun operand => do
    match ← world (World.openOutput table (Raw.toBytes operand) (!a.has 'a') (a.has 'a') false) with
    | .ok stream => return some (operand, stream)
    | .error fault =>
      refuse operand fault
      return none
  let (text, wasRead) ← match ← readInput with
    | .ok text => pure (text, true)
    | .error fault =>
      complainText ("read error: " ++ fault.reason)
      pure ([], false)
  let wasPrinted ← match ← write 1 text with
    | .ok () => pure true
    | .error fault =>
      (unwritable "tee" fault).2.forM complainText
      pure false
  let written ← (files.filterMap id).mapM fun (operand, stream) => do
    match ← world (World.writeStream stream text) with
    | .ok () => return true
    | .error fault =>
      refuse operand fault
      return false
  if files.contains none ∨ !wasRead ∨ !wasPrinted ∨ written.contains false then exit 1

end MergeTrial.Shell.Utility
