import MergeTrial.Regex.Reader
import MergeTrial.Shell.Editor.Script

/-! Reading editing scripts. A script may be given in parts, and each part is read on its own, but
blocks and texts go on in the next one. -/

namespace MergeTrial.Shell.Editor

inductive Origin where
  | argument (number : Nat)
  | file (name : Raw)

/-- What is wrong with a script, and the status for it. -/
structure Refusal where
  message : Raw
  status : Nat
  targets : List Raw

structure Progress where
  origin : Origin
  rest : Raw
  used : Nat
  line : Nat
  extended : Bool
  confined : Bool
  ending : Char
  instructions : Array Instruction
  blocks : List (Nat × Origin × Nat)
  labels : List (Raw × Nat)
  targets : List Raw
  unfinished : Option Raw
  parts : Nat
  silent : Bool

namespace Progress

def start (extended confined silent : Bool) (ending : Char) : Progress :=
  ⟨.argument 0, [], 0, 1, extended, confined, ending, #[], [], [], [], none, 0, silent⟩

def place (p : Progress) : Raw :=
  match p.origin with
  | .argument n =>
    "-e expression #".toList ++ Raw.ofNat n ++ ", char ".toList ++ Raw.ofNat p.used
  | .file name => "file ".toList ++ name ++ " line ".toList ++ Raw.ofNat p.line

def complaint (p : Progress) (message : String) : Refusal :=
  ⟨p.place ++ ": ".toList ++ message.toList, 1, p.targets⟩

end Progress

abbrev Scan (α : Type) := StateT Progress (Except Refusal) α

namespace Scan

def fail {α : Type} (message : String) : Scan α := fun p => .error (p.complaint message)

def take (count : Nat) : Scan Raw := modifyGet fun p =>
  let taken := p.rest.take count
  (taken, { p with
    rest := p.rest.drop count
    used := p.used + taken.length
    line := p.line + taken.count '\n' })

def next? : Scan (Option Char) := do return (← take 1).head?

def takeWhile (suits : Char → Bool) : Scan Raw := do
  take ((← get).rest.takeWhile suits).length

def nextIf? (suits : Char → Bool) : Scan (Option Char) := do
  match (← get).rest with
  | c :: _ => if suits c then next? else return none
  | [] => return none

def nextAfterBlanks? : Scan (Option Char) := do
  let _ ← takeWhile Raw.isBlank
  next?

def number : Scan Nat := do return Raw.ofDigits (← takeWhile Char.isDigit)

/-! Texts between delimiters -/

inductive Nesting where
  | outside
  | opened
  | negated
  | inside
  | named (mark : Char)
  deriving DecidableEq

def Nesting.after (n : Nesting) (c : Char) (next : Option Char) : Nesting × Bool :=
  match n with
  | .outside => (if c = '[' then .opened else .outside, false)
  | .named mark => if c = mark ∧ next = some ']' then (.inside, true) else (n, false)
  | _ =>
    if c = '^' ∧ n = .opened then (.negated, false)
    else if c = ']' then (if n = .inside then .outside else .inside, false)
    else match next with
      | some mark =>
        if c = '[' ∧ (mark = ':' ∨ mark = '.' ∨ mark = '=') then (.named mark, true)
        else (.inside, false)
      | none => (.inside, false)

def upTo (delimiter : Char) (isForm : Bool) : Nat → Nesting → Raw → Option Raw × Nat
  | _, _, [] => (none, 0)
  | dealt + 1, nesting, _ :: rest =>
    let (text, taken) := upTo delimiter isForm dealt nesting rest
    (text, taken + 1)
  | 0, nesting, c :: rest =>
    let go (piece : Raw) (dealt : Nat) (nesting : Nesting) : Option Raw × Nat :=
      let (text, taken) := upTo delimiter isForm dealt nesting rest
      (text.map (piece ++ ·), taken + 1)
    let next := rest.head?
    if c = '\n' then (none, 0)
    else if nesting ≠ .outside then
      if c = '\\' ∧ next = some 'n' then go ['\n'] 1 .inside
      else
        let (after, both) := nesting.after c next
        if both then go (c :: next.toList) 1 after else go [c] 0 after
    else if c = delimiter then (some [], 1)
    else if c = '\\' then
      match next with
      | none => (none, 1)
      | some d =>
        if isForm ∧ d = 'n' then go ['\n'] 1 nesting
        else if d = '\n' ∨ (d = delimiter ∧ (isForm ∨ d ≠ '&')) then go [d] 1 nesting
        else go ['\\', d] 1 nesting
    else go [c] 0 (if isForm then (nesting.after c next).1 else nesting)

def delimited (delimiter : Option Char) (isForm : Bool) (message : String) : Scan Raw := do
  match delimiter with
  | none => fail message
  | some c =>
    let (text, taken) := upTo c isForm 0 .outside (← get).rest
    let _ ← take taken
    match text with
    | some text => return text
    | none => fail message

def digitIn? (base : Nat) (c : Char) : Option Nat :=
  let value :=
    if c.isDigit then c.toNat - 48
    else if 'a' ≤ c.toLower ∧ c.toLower ≤ 'f' then c.toLower.toNat - 87
    else 16
  if value < base then some value else none

def numbered? (base most : Nat) (text : Raw) : Option (Char × Nat) :=
  let digits := ((text.take most).map (digitIn? base)).takeWhile (·.isSome)
  let value := digits.foldl (fun n d => n * base + d.getD 0) 0
  if digits.isEmpty then none else some (Char.ofNat (value % 256), digits.length)

def escape? (text : Raw) : Option (Char × Nat × Bool) :=
  let counted (found : Option (Char × Nat)) : Option (Char × Nat × Bool) :=
    found.map fun (c, taken) => (c, taken + 1, true)
  match text with
  | 'c' :: '\\' :: '\\' :: _ => some ('\x1c', 3, false)
  | 'c' :: c :: _ =>
    if c = '\\' then none else some (Char.ofNat ((c.toUpper.toNat + 64) % 128), 2, false)
  | 'd' :: rest => counted (numbered? 10 3 rest)
  | 'o' :: rest => counted (numbered? 8 3 rest)
  | 'x' :: rest => counted (numbered? 16 2 rest)
  | c :: _ => (Regex.control? c).map fun control => (control, 1, false)
  | [] => none

def convert (isReplacement : Bool) : Nat → Raw → Raw
  | _, [] => []
  | taken + 1, _ :: rest => convert isReplacement taken rest
  | 0, c :: rest =>
    if c ≠ '\\' then c :: convert isReplacement 0 rest
    else match escape? rest with
      | none => '\\' :: (rest.take 1 ++ convert isReplacement 1 rest)
      | some (made, taken, isNumbered) =>
        (if isReplacement ∧ isNumbered ∧ (made = '&' ∨ made = '\\') then ['\\', made] else [made])
          ++ convert isReplacement taken rest

def plain : Raw → Raw
  | [] => []
  | ['\\'] => []
  | '\\' :: c :: rest => c :: plain rest
  | c :: rest => c :: plain rest

/-! Expressions -/

def form (text : Raw) (fold byLine : Bool) : Scan (Option Form) := do
  if text.isEmpty then
    if fold ∨ byLine then fail "cannot specify modifiers on empty regexp"
    return none
  let p ← get
  let dialect : Regex.Dialect := ⟨p.extended, true, false, true, byLine && p.ending == '\n'⟩
  match Regex.read dialect (convert false 0 text) with
  | .ok regex => return some ⟨regex, fold⟩
  | .error .bareClass => throw ⟨(Regex.Fault.bareClass.message).toList, 4, p.targets⟩
  | .error fault => fail fault.message

def groupCount : Regex → Nat
  | .seq a b | .alt a b => groupCount a + groupCount b
  | .times body _ _ => groupCount body
  | .group _ body => groupCount body + 1
  | _ => 0

/-! Addresses -/

def addressFlags : Nat → Bool → Bool → Scan (Bool × Bool)
  | 0, fold, byLine => return (fold, byLine)
  | n + 1, fold, byLine => do
    let _ ← takeWhile Raw.isBlank
    match ← nextIf? fun c => c == 'I' || c == 'M' with
    | some 'I' => addressFlags n true byLine
    | some _ => addressFlags n fold true
    | none => return (fold, byLine)

def limit? (c : Char) : Scan (Option Limit) := do
  if c = '/' ∨ c = '\\' then
    let delimiter ← if c = '\\' then next? else pure (some c)
    let text ← delimited delimiter true "unterminated address regex"
    let (fold, byLine) ← addressFlags (← get).rest.length false false
    return some (.at (.matching (← form text fold byLine)))
  else if c.isDigit then
    let first := Raw.ofDigits (c :: (← takeWhile Char.isDigit))
    let _ ← takeWhile Raw.isBlank
    match ← nextIf? (· == '~') with
    | none => return some (.at (.line first))
    | some _ =>
      let _ ← takeWhile Raw.isBlank
      let gap ← number
      return some (.at (if gap = 0 then .line first else .step first gap))
  else if c = '+' ∨ c = '~' then
    let _ ← takeWhile Raw.isBlank
    let count ← number
    return some (if count = 0 then .at (.line 0)
      else if c = '+' then .after count
      else .multiple count)
  else if c = '$' then return some (.at .last)
  else return none

def extent (c : Char) : Scan (Extent × Option Char) := do
  match ← limit? c with
  | none => return (.all, some c)
  | some (.at first) =>
    let c ← nextAfterBlanks?
    let (found, c) ← if c = some ',' then do
        let c ← nextAfterBlanks?
        match ← (match c with
          | some c => limit? c
          | none => pure none) with
        | none => fail "unexpected \x60,'"
        | some limit => pure (Extent.range first limit, ← nextAfterBlanks?)
      else pure (Extent.one first, c)
    match found with
    | .one (.line 0) => fail "invalid usage of line address 0"
    | .range (.line 0) (.at (.matching _)) => return (found, c)
    | .range (.line 0) _ => fail "invalid usage of line address 0"
    | _ => return (found, c)
  | some _ => fail "invalid usage of +N or ~N as first address"

/-! Parts of instructions -/

def finish : Scan Unit := do
  let _ ← takeWhile Raw.isBlank
  match (← get).rest with
  | [] => return ()
  | c :: _ =>
    if c = '\x7d' ∨ c = '#' then return ()
    let _ ← next?
    if c ≠ '\n' ∧ c ≠ ';' then fail "extra characters after command"

def label : Scan Raw := do
  let _ ← takeWhile Raw.isBlank
  takeWhile fun c => !Raw.isSpace c && c != ';' && c != '\x7d'

def fileName : Scan Raw := do
  if (← get).confined then fail "e/r/w commands disabled in sandbox mode"
  let _ ← takeWhile Raw.isBlank
  let name ← takeWhile (· != '\n')
  let _ ← next?
  if name.isEmpty then fail "missing filename in r/R/w/W commands"
  return name

def target : Scan Target := do
  let name ← fileName
  if name = "/dev/stdout".toList then return .output
  else if name = "/dev/stderr".toList then return .errors
  else
    modify fun p => { p with
      targets := if p.targets.contains name then p.targets else p.targets ++ [name] }
    return .file name

def textLines : Raw → Raw × Nat × Bool
  | [] => ([], 0, false)
  | ['\\'] => ([], 1, true)
  | '\\' :: c :: rest =>
    let (text, taken, goesOn) := textLines rest
    ('\\' :: c :: text, taken + 2, goesOn)
  | c :: rest =>
    if c = '\n' then ([], 1, false)
    else
      let (text, taken, goesOn) := textLines rest
      (c :: text, taken + 1, goesOn)

/-- A text that starts here, after some of it. If it may go on in the next part of the script, it is
taken as it is until then. -/
def textHere (before : Raw) : Scan Raw := do
  let (text, taken, goesOn) := textLines (← get).rest
  let _ ← take taken
  if goesOn then
    let whole := before ++ text ++ ['\n']
    modify fun p => { p with unfinished := some whole }
    return whole
  else return plain (convert false 0 (before ++ text)) ++ ['\n']

def text : Scan Raw := do
  let _ ← takeWhile Raw.isBlank
  match (← get).rest with
  | [] => fail "expected \\ after \x60a', \x60c' or \x60i'"
  | '\\' :: rest =>
    let _ ← next?
    match rest with
    | [] =>
      modify fun p => { p with unfinished := some [] }
      return []
    | '\n' :: _ =>
      let _ ← next?
      textHere []
    | '\\' :: _ => textHere []
    | _ => textHere (← take 1)
  | _ => textHere []

def status : Scan Nat := do
  let _ ← takeWhile Raw.isBlank
  let status ← number
  finish
  return status % 256

/-! Substitutions -/

/-- What is known while a replacement is read: the pieces so far, the last first, the text after
them, and what happens to the case of the next piece and of those after it. -/
structure Replacing where
  pieces : List Piece
  text : Raw
  shift : Shift
  later : Case

namespace Replacing

def close (r : Replacing) (group : Option Nat) : Replacing :=
  ⟨⟨r.text, group, r.shift⟩ :: r.pieces, [], ⟨r.later, .kept⟩, r.later⟩

def turn (r : Replacing) (case : Case) : Replacing :=
  { r.close none with shift := ⟨case, .kept⟩, later := case }

def turnOne (r : Replacing) (case : Case) : Replacing :=
  let closed := r.close none
  { closed with shift := ⟨closed.later, case⟩ }

def escaped (r : Replacing) (c : Char) : Replacing :=
  if c.isDigit then r.close (some (c.toNat - 48))
  else match c with
    | 'L' => r.turn .lower
    | 'U' => r.turn .upper
    | 'E' => r.turn .kept
    | 'l' => r.turnOne .lower
    | 'u' => r.turnOne .upper
    | _ => { r with text := r.text ++ [c] }.close none

end Replacing

def replacing : Raw → Replacing → Replacing
  | [], r => r.close none
  | ['\\'], r => { r with text := r.text ++ ['\\'] }.close none
  | '\\' :: c :: rest, r => replacing rest (r.escaped c)
  | '&' :: rest, r => replacing rest (r.close (some 0))
  | c :: rest, r => replacing rest { r with text := r.text ++ [c] }

def replacement (text : Raw) : List Piece :=
  ((replacing (convert true 0 text) ⟨[], [], ⟨.kept, .kept⟩, .kept⟩).pieces).reverse

structure Options where
  substitution : Substitution
  fold : Bool
  byLine : Bool

def substitutionOptions : Nat → Options → Scan Options
  | 0, o => return o
  | n + 1, o => do
    match (← get).rest with
    | [] => return o
    | c :: _ =>
      if c = '\x7d' ∨ c = '#' then return o
      let _ ← next?
      if c = '\n' ∨ c = ';' then return o
      let s := o.substitution
      if c.isDigit then
        if s.first ≠ 0 then
          let _ ← takeWhile Char.isDigit
          fail "multiple number options to \x60s' command"
        let first := Raw.ofDigits (c :: (← takeWhile Char.isDigit))
        if first = 0 then fail "number option to \x60s' command may not be zero"
        substitutionOptions n { o with substitution := { s with first := first } }
      else match c with
        | ' ' => substitutionOptions n o
        | '\t' => substitutionOptions n o
        | 'i' | 'I' => substitutionOptions n { o with fold := true }
        | 'm' | 'M' => substitutionOptions n { o with byLine := true }
        | 'e' =>
          if (← get).confined then fail "e/r/w commands disabled in sandbox mode"
          substitutionOptions n { o with substitution := { s with evaluates := true } }
        | 'p' =>
          if s.prints then fail "multiple \x60p' options to \x60s' command"
          substitutionOptions n { o with substitution := { s with prints := true } }
        | 'g' =>
          if s.everywhere then fail "multiple \x60g' options to \x60s' command"
          substitutionOptions n { o with substitution := { s with everywhere := true } }
        | 'w' => return { o with substitution := { s with target := some (← target) } }
        | _ => fail "unknown option to \x60s'"

def substitution : Scan Substitution := do
  let unterminated := "unterminated \x60s' command"
  let delimiter ← next?
  let pattern ← delimited delimiter true unterminated
  let pieces := replacement (← delimited delimiter false unterminated)
  let o ← substitutionOptions ((← get).rest.length + 1)
    ⟨⟨none, pieces, 0, false, false, false, none⟩, false, false⟩
  let form ← form pattern o.fold o.byLine
  let used := (pieces.filterMap Piece.group).foldl max 0
  match form with
  | some form =>
    if groupCount form.regex < used then
      fail ("invalid reference \\" ++ toString used ++ " on \x60s' command's RHS")
  | none => pure ()
  return { o.substitution with form := form }

def pairs : Scan (List (Char × Char)) := do
  let unterminated := "unterminated \x60y' command"
  let delimiter ← next?
  let before := plain (convert false 0 (← delimited delimiter false unterminated))
  let after := plain (convert false 0 (← delimited delimiter false unterminated))
  if before.length ≠ after.length then
    fail "strings for \x60y' command are different lengths"
  finish
  return before.zip after

/-! Instructions -/

def action (letter : Char) : Scan Action := do
  let simple (action : Action) : Scan Action := do
    finish
    return action
  match letter with
  | 'a' => return .append (← text)
  | 'i' => return .insert (← text)
  | 'c' => return .change (← text)
  | 'e' =>
    if (← get).confined then fail "e/r/w commands disabled in sandbox mode"
    let _ ← takeWhile Raw.isBlank
    match (← get).rest with
    | [] => return .execute []
    | c :: _ =>
      if c = '\n' then
        let _ ← next?
        return .execute []
      else return .execute (← text)
  | 'b' => return .jump (← label)
  | 't' => return .jumpIf (← label)
  | 'T' => return .jumpUnless (← label)
  | 'q' => return .quit (← status)
  | 'Q' => return .leave (← status)
  | 'l' =>
    let _ ← takeWhile Raw.isBlank
    let digits ← takeWhile Char.isDigit
    simple (.list (if digits.isEmpty then none else some (Raw.ofDigits digits)))
  | 'r' => return .read (← fileName)
  | 'R' => return .readLine (← fileName)
  | 'w' => return .write (← target)
  | 'W' => return .writeFirst (← target)
  | 's' => return .substitute (← substitution)
  | 'y' => return .exchangeChars (← pairs)
  | '=' => simple .number
  | 'd' => simple .delete
  | 'D' => simple .deleteFirst
  | 'F' => simple .showName
  | 'g' => simple .recall
  | 'G' => simple .recallMore
  | 'h' => simple .hold
  | 'H' => simple .holdMore
  | 'n' => simple .next
  | 'N' => simple .nextMore
  | 'p' => simple .print
  | 'P' => simple .printFirst
  | 'x' => simple .exchange
  | 'z' => simple .clear
  | _ => fail ("unknown command: \x60" ++ String.ofList [letter] ++ "'")

def add (extent : Extent) (negated : Bool) (action : Action) : Scan Unit := modify fun p =>
  { p with instructions := p.instructions.push ⟨extent, negated, action⟩ }

def closeBlock (extent : Extent) : Scan Unit := do
  let p ← get
  match p.blocks, extent with
  | [], _ => fail "unexpected \x60\x7d'"
  | (start, _) :: blocks, .all =>
    finish
    let closed := p.instructions.modify start fun i =>
      { i with action := .block p.instructions.size }
    modify fun p => { p with blocks := blocks, instructions := closed }
  | _, _ => fail "\x60\x7d' doesn't want any addresses"

def isLater (version : Raw) : Bool :=
  match version.takeWhile Char.isDigit with
  | [] => !version.isEmpty && '4' < version.headD '4'
  | digits =>
    let minor := Raw.ofDigits ((version.drop (digits.length + 1)).takeWhile Char.isDigit)
    4 < Raw.ofDigits digits || (Raw.ofDigits digits = 4 && 9 < minor)

def instruction (c : Char) : Scan Unit := do
  let (extent, c) ← extent c
  let (negated, c) ← if c = some '!' then do
      let c ← nextAfterBlanks?
      if c = some '!' then fail "multiple \x60!'s"
      pure (true, c)
    else pure (false, c)
  match c, extent with
  | none, _ => fail "missing command"
  | some '#', .all =>
    let p ← get
    let comment ← takeWhile (· != '\n')
    if p.parts = 1 ∧ p.used = 1 ∧ comment.head? = some 'n' then
      modify fun p => { p with silent := true }
  | some '#', _ => fail "comments don't accept any addresses"
  | some ':', .all =>
    let name ← label
    if name.isEmpty then fail "\":\" lacks a label"
    modify fun p => { p with labels := (name, p.instructions.size) :: p.labels }
  | some ':', _ => fail ": doesn't want any addresses"
  | some '\x7d', _ => closeBlock extent
  | some '\x7b', _ =>
    let p ← get
    modify fun p => { p with blocks := (p.instructions.size, p.origin, p.line) :: p.blocks }
    add extent negated (.block p.instructions.size)
  | some 'v', _ =>
    if isLater (← label) then fail "expected newer version of sed"
  | some letter, .range _ _ =>
    if letter = 'q' ∨ letter = 'Q' then fail "command only uses one address"
    add extent negated (← action letter)
  | some letter, _ => add extent negated (← action letter)

def giveText (text : Raw) : Action → Action
  | .append _ => .append text
  | .insert _ => .insert text
  | .change _ => .change text
  | .execute _ => .execute text
  | action => action

def instructions : Nat → Scan Unit
  | 0 => return ()
  | n + 1 => do
    let _ ← takeWhile fun c => c == ';' || Raw.isSpace c
    match ← next? with
    | none => return ()
    | some c =>
      instruction c
      instructions n

def part (origin : Origin) (content : Raw) : Scan Unit := do
  let unfinished := (← get).unfinished
  modify fun p => { p with
    origin := origin, rest := content, used := 0, line := 1, unfinished := none
    parts := p.parts + 1 }
  if let some before := unfinished then
    let text ← textHere before
    modify fun p =>
      let given := p.instructions.modify (p.instructions.size - 1) fun i =>
        { i with action := giveText text i.action }
      { p with instructions := given }
  instructions (content.length + 1)

def jumpTarget? : Action → Option Raw
  | .jump label | .jumpIf label | .jumpUnless label =>
    if label.isEmpty then none else some label
  | _ => none

def script (parts : List (Origin × Raw)) : Scan Script := do
  parts.forM fun (origin, content) => part origin content
  modify fun p => { p with used := 0 }
  let p ← get
  match p.blocks with
  | (_, origin, line) :: _ =>
    set { p with origin := origin, line := line }
    fail "unmatched \x60\x7b'"
  | [] => pure ()
  let wanted := p.instructions.toList.filterMap fun i => jumpTarget? i.action
  match wanted.find? fun label => (p.labels.lookup label).isNone with
  | some label => throw ⟨"can't find label for jump to \x60".toList ++ label ++ ['\''], 4, p.targets⟩
  | none => return ⟨p.instructions, p.labels, p.targets, p.silent⟩

end Scan

def readScript (extended confined silent : Bool) (ending : Char) (parts : List (Origin × Raw)) :
    Except Refusal (Script × Progress) :=
  (Scan.script parts).run (Progress.start extended confined silent ending)

end MergeTrial.Shell.Editor
