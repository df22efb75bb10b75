import MergeTrial.Regex.Basic

/-! Reading regular expressions in their two common notations. A text is cut into tokens, and these
are put together with a stack of the groups that are still open. -/

namespace MergeTrial.Regex

structure Dialect where
  extended : Bool
  controls : Bool
  bracketEscapes : Bool
  strict : Bool
  byLine : Bool
  deriving DecidableEq

inductive Fault where
  | openBracket
  | emptyBracket
  | bareClass
  | openGroup
  | closedGroup
  | openInterval
  | badInterval
  | badRange
  | badClass
  | badReference
  | nothingToRepeat
  | trailingBackslash
  | tooBig
  deriving DecidableEq, Inhabited

def Fault.message : Fault → String
  | .openBracket => "Unmatched [, [^, [:, [., or [="
  | .emptyBracket => "Invalid regular expression"
  | .bareClass => "character class syntax is [[:space:]], not [:space:]"
  | .openGroup => "Unmatched ( or \\("
  | .closedGroup => "Unmatched ) or \\)"
  | .openInterval => "Unmatched \\\x7b"
  | .badInterval => "Invalid content of \\\x7b\\\x7d"
  | .badRange => "Invalid range end"
  | .badClass => "Invalid character class name"
  | .badReference => "Invalid back reference"
  | .nothingToRepeat => "Invalid preceding regular expression"
  | .trailingBackslash => "Trailing backslash"
  | .tooBig => "Regular expression too big"

inductive Token where
  | set (set : CharSet)
  | opening
  | closing
  | bar
  | times (least : Nat) (most : Option Nat)
  | back (index : Nat)
  | anchor (kind : Anchor)
  deriving DecidableEq, Inhabited

def control? (c : Char) : Option Char :=
  match c with
  | 'n' => some '\n'
  | 't' => some '\t'
  | 'r' => some '\r'
  | 'f' => some '\x0c'
  | 'v' => some '\x0b'
  | 'a' => some '\x07'
  | _ => none

def classRanges? (name : String) : Option (List (Char × Char)) :=
  match name with
  | "alpha" => some [('a', 'z'), ('A', 'Z')]
  | "digit" => some [('0', '9')]
  | "alnum" => some [('a', 'z'), ('A', 'Z'), ('0', '9')]
  | "upper" => some [('A', 'Z')]
  | "lower" => some [('a', 'z')]
  | "space" => some [(' ', ' '), ('\t', '\r')]
  | "blank" => some [(' ', ' '), ('\t', '\t')]
  | "punct" => some [('!', '/'), (':', '@'), ('[', '\x60'), ('\x7b', '~')]
  | "print" => some [(' ', '~')]
  | "graph" => some [('!', '~')]
  | "cntrl" => some [('\x00', '\x1f'), ('\x7f', '\x7f')]
  | "xdigit" => some [('0', '9'), ('a', 'f'), ('A', 'F')]
  | _ => none

def wordRanges : List (Char × Char) := [('a', 'z'), ('A', 'Z'), ('0', '9'), ('_', '_')]

def spaceRanges : List (Char × Char) := [(' ', ' '), ('\t', '\r')]

namespace Bracket

def upTo (mark : Char) : List Char → Option (List Char × List Char)
  | [] => none
  | [_] => none
  | c :: d :: rest =>
    if c = mark ∧ d = ']' then some ([], rest)
    else (upTo mark (d :: rest)).map fun found => (c :: found.1, found.2)

def char? (d : Dialect) : List Char → Except Fault (Char × List Char)
  | [] => .error .openBracket
  | '[' :: mark :: rest =>
    if mark = '.' ∨ mark = '=' then
      match upTo mark rest with
      | some ([c], rest) => .ok (c, rest)
      | some _ => .error .badClass
      | none => .error .openBracket
    else .ok ('[', mark :: rest)
  | '\\' :: c :: rest =>
    if d.bracketEscapes then .ok ((control? c).getD c, rest)
    else match (if d.controls then control? c else none) with
      | some control => .ok (control, rest)
      | none => .ok ('\\', c :: rest)
  | c :: rest => .ok (c, rest)

def elements (d : Dialect) :
    Nat → Bool → List Char → Except Fault (List (Char × Char) × List Char)
  | 0, _, _ => .error .openBracket
  | fuel + 1, first, cs =>
    match cs with
    | [] => .error .openBracket
    | ']' :: rest =>
      if first then finishElement fuel cs else .ok ([], rest)
    | '[' :: ':' :: rest =>
      match upTo ':' rest with
      | none => .error .openBracket
      | some (name, rest) =>
        match classRanges? (String.ofList name) with
        | none => .error .badClass
        | some ranges => (elements d fuel false rest).map fun more => (ranges ++ more.1, more.2)
    | _ => finishElement fuel cs
where
  finishElement (fuel : Nat) (cs : List Char) :
      Except Fault (List (Char × Char) × List Char) := do
    let (low, rest) ← char? d cs
    let (high, rest) ← match rest with
      | '-' :: c :: rest =>
        if c = ']' then pure (low, '-' :: c :: rest) else char? d (c :: rest)
      | rest => pure (low, rest)
    if high < low then throw .badRange
    let more ← elements d fuel false rest
    return ((low, high) :: more.1, more.2)

def read (d : Dialect) (cs : List Char) : Except Fault (CharSet × List Char) :=
  let negated := cs.head? == some '^'
  let cs := if negated then cs.drop 1 else cs
  let content := cs.takeWhile (· != ']')
  if cs.isEmpty then .error .emptyBracket
  else if 2 < content.length ∧ content.head? = some ':' ∧ content.getLast? = some ':' then
    .error .bareClass
  else (elements d (cs.length + 1) true cs).map fun found =>
    (⟨if d.byLine && negated then ('\n', '\n') :: found.1 else found.1, negated⟩, found.2)

end Bracket

def natOf (digits : List Char) : Nat := digits.foldl (fun n c => n * 10 + (c.toNat - 48)) 0

def interval (d : Dialect) (cs : List Char) : Except Fault (Token × List Char) := do
  let low := cs.takeWhile Char.isDigit
  let rest := cs.dropWhile Char.isDigit
  let (high, rest) : Option (List Char) × List Char := match rest with
    | ',' :: rest => (some (rest.takeWhile Char.isDigit), rest.dropWhile Char.isDigit)
    | rest => (none, rest)
  let rest ← match d.extended, rest with
    | true, '\x7d' :: rest => pure rest
    | false, '\\' :: '\x7d' :: rest => pure rest
    | _, [] => throw .openInterval
    | _, _ => throw .badInterval
  let least := natOf low
  let most := match high with
    | none => some least
    | some [] => none
    | some digits => some (natOf digits)
  if low.isEmpty && high.isNone then throw .badInterval
  if most.any (· < least) then throw .badInterval
  if 32767 < least ∨ most.any (32767 < ·) then throw .tooBig
  return (.times least most, rest)

def opensContext : Option Token → Bool
  | none | some .opening | some .bar => true
  | _ => false

def opensLine : Option Token → Bool
  | some (.anchor .start) | some (.anchor .lineStart) => true
  | _ => false

def followsTimes : Option Token → Bool
  | some (.times ..) => true
  | _ => false

def escaped (d : Dialect) (c : Char) : Token :=
  match c with
  | 'w' => .set ⟨wordRanges, false⟩
  | 'W' => .set ⟨wordRanges, true⟩
  | 's' => .set ⟨spaceRanges, false⟩
  | 'S' => .set ⟨spaceRanges, true⟩
  | '<' => .anchor .wordStart
  | '>' => .anchor .wordEnd
  | 'b' => .anchor .boundary
  | 'B' => .anchor .inside
  | '\x60' => .anchor .start
  | '\'' => .anchor .finish
  | _ =>
    if '1' ≤ c ∧ c ≤ '9' then .back (c.toNat - 48)
    else match (if d.controls then control? c else none) with
      | some control => .set (.single control)
      | none => .set (.single c)

def token (d : Dialect) (before : Option Token) (c : Char) (rest : List Char) :
    Except Fault (Token × List Char) :=
  let literal (c : Char) : Except Fault (Token × List Char) := .ok (.set (.single c), rest)
  let lone : Except Fault (Token × List Char) :=
    if d.strict then .error .nothingToRepeat else .ok (.times 0 none, rest)
  match c with
  | '.' => .ok (.set (if d.byLine then ⟨[('\n', '\n')], true⟩ else .all), rest)
  | '[' => (Bracket.read d rest).map fun found => (.set found.1, found.2)
  | '*' =>
    if d.extended then
      if opensContext before || (d.strict && opensLine before) then lone
      else .ok (.times 0 none, rest)
    else if opensContext before || opensLine before then literal c
    else if d.strict && followsTimes before then .error .nothingToRepeat
    else .ok (.times 0 none, rest)
  | '^' =>
    if d.extended || opensContext before then
      .ok (.anchor (if d.byLine then .lineStart else .start), rest)
    else literal c
  | '$' =>
    let atEnd := rest.isEmpty || ['\\', ')'].isPrefixOf rest || ['\\', '|'].isPrefixOf rest
    if d.extended || atEnd then
      .ok (.anchor (if d.byLine then .lineFinish else .finish), rest)
    else literal c
  | '\\' =>
    match rest with
    | [] => .error .trailingBackslash
    | e :: rest =>
      if d.extended then .ok (escaped d e, rest)
      else match e with
        | '(' => .ok (.opening, rest)
        | ')' => .ok (.closing, rest)
        | '|' => .ok (.bar, rest)
        | '\x7b' =>
          if opensContext before || (d.strict && followsTimes before) then
            if d.strict then .error .nothingToRepeat else .ok (.set (.single e), rest)
          else interval d rest
        | '+' => .ok (if opensContext before then .set (.single e) else .times 1 none, rest)
        | '?' => .ok (if opensContext before then .set (.single e) else .times 0 (some 1), rest)
        | _ => .ok (escaped d e, rest)
  | _ =>
    if !d.extended then literal c
    else match c with
      | '(' => .ok (.opening, rest)
      | ')' => .ok (.closing, rest)
      | '|' => .ok (.bar, rest)
      | '+' => if opensContext before then lone else .ok (.times 1 none, rest)
      | '?' => if opensContext before then lone else .ok (.times 0 (some 1), rest)
      | '\x7b' =>
        if opensContext before then lone
        else match interval d rest with
          | .ok found => .ok found
          | .error .openInterval => if d.strict then .error .openInterval else literal c
          | .error .badInterval =>
            let isCount := (rest.takeWhile fun c => c.isDigit || c == ',').length
            if d.strict || (0 < isCount && rest[isCount]? == some '\x7d') then
              .error .badInterval
            else literal c
          | .error fault => .error fault
      | _ => literal c

def tokens (d : Dialect) : Nat → Option Token → List Char → Except Fault (List Token)
  | _, _, [] => .ok []
  | 0, _, _ => .error .tooBig
  | fuel + 1, before, c :: rest => do
    let (next, rest) ← token d before c rest
    return next :: (← tokens d fuel (some next) rest)

/-- A group under way: its number, the alternatives before the present one, and the elements of
that one, the last first. -/
structure Frame where
  index : Nat
  alternatives : Option Regex
  elements : List Regex

namespace Frame

def blank (index : Nat) : Frame := ⟨index, none, []⟩

def sequence (f : Frame) : Regex :=
  match f.elements with
  | [] => .empty
  | last :: earlier => earlier.foldl (fun rest r => .seq r rest) last

def whole (f : Frame) : Regex :=
  match f.alternatives with
  | none => f.sequence
  | some earlier => .alt earlier f.sequence

def push (f : Frame) (r : Regex) : Frame := { f with elements := r :: f.elements }

end Frame

structure Assembly where
  top : Frame
  outer : List Frame
  groups : Nat

namespace Assembly

def step (d : Dialect) (a : Assembly) : Token → Except Fault Assembly
  | .set set => .ok { a with top := a.top.push (.one set) }
  | .anchor kind => .ok { a with top := a.top.push (.assert kind) }
  | .back index =>
    if index ≤ a.groups then .ok { a with top := a.top.push (.back index) }
    else .error .badReference
  | .opening => .ok ⟨.blank (a.groups + 1), a.top :: a.outer, a.groups + 1⟩
  | .closing =>
    match a.outer with
    | [] =>
      if d.extended && !d.strict then
        .ok { a with top := a.top.push (.one (.single ')')) }
      else .error .closedGroup
    | parent :: outer => .ok { a with
        top := parent.push (.group a.top.index a.top.whole)
        outer := outer }
  | .bar => .ok { a with top := { a.top with alternatives := some a.top.whole, elements := [] } }
  | .times least most =>
    match a.top.elements with
    | [] => .ok a
    | last :: rest =>
      .ok { a with top := { a.top with elements := .times last least most :: rest } }

end Assembly

def read (d : Dialect) (cs : List Char) : Except Fault Regex := do
  let a ← (← tokens d cs.length none cs).foldlM (Assembly.step d) ⟨.blank 0, [], 0⟩
  if a.outer.isEmpty then return a.top.whole else throw .openGroup

def basic : Dialect := ⟨false, false, false, false, false⟩

def extended : Dialect := ⟨true, false, false, false, false⟩

end MergeTrial.Regex
