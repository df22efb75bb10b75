import MergeTrial.Log.Event
import MergeTrial.Regex.Reader
import MergeTrial.Text.Blank

/-! Directives of a log filter: what they are about, and the threshold that they set for it. A
directive has the form `target[span{field=value}]=level`, and each part may be left out. -/

namespace MergeTrial.Log

/-- A threshold is the rank of the last level that passes; zero keeps every event out. -/
abbrev Threshold := Nat

namespace Threshold

def number? (cs : List Char) : Option Nat :=
  let digits := match cs with
    | '+' :: rest => rest
    | _ => cs
  if digits.isEmpty || !digits.all Char.isDigit then none
  else some (digits.foldl (fun n c => n * 10 + (c.toNat - 48)) 0)

def ofText? (cs : List Char) : Option Threshold :=
  let name := String.ofList (cs.map Char.toLower)
  match (number? cs).filter (· ≤ Level.trace.rank) with
  | some n => some n
  | none =>
    if name = "off" then some 0 else (Level.all.find? (·.name == name)).map Level.rank

end Threshold

inductive ValueMatch where
  | other (literal : String)
  | form (regex : Regex)
  deriving DecidableEq

namespace ValueMatch

def isLiteral (cs : List Char) : Bool :=
  let unsigned := if cs.head? == some '-' ∨ cs.head? == some '+' then cs.drop 1 else cs
  let digits := unsigned.filter (· != '.')
  let word := String.ofList (unsigned.map Char.toLower)
  ["true", "false"].contains (String.ofList cs) || ["inf", "infinity", "nan"].contains word
    || (!digits.isEmpty && digits.all Char.isDigit && unsigned.length ≤ digits.length + 1)

def ofText? (cs : List Char) : Option ValueMatch :=
  if isLiteral cs then some (.other (String.ofList cs))
  else match Regex.read ⟨true, true, true, true, false⟩ cs with
    | .ok regex => some (.form regex)
    | .error _ => none

def accepts : ValueMatch → String → Bool
  | .other _, _ => false
  | .form regex, text => regex.matchesWhole false text.toList

end ValueMatch

/-- A field that a span has to have, and what its value has to be, if that is given. -/
structure FieldMatch where
  name : String
  value : Option ValueMatch
  deriving DecidableEq

def FieldMatch.accepts (field : FieldMatch) (value : String) : Bool :=
  field.value.all (·.accepts value)

structure Directive where
  target : Option String
  span : Option String
  fields : List FieldMatch
  threshold : Threshold
  deriving DecidableEq

namespace Directive

def isAlphanumeric (c : Char) : Bool :=
  let n := c.toNat
  c.isAlphanum || n == 0xAA || n == 0xB5 || n == 0xBA
    || (0xC0 ≤ n && n != 0xD7 && n != 0xF7 && !(0x2000 ≤ n && n < 0x2C00)
      && !(0x3000 ≤ n && n < 0x3005) && !(0x3008 ≤ n && n < 0x3021) && !(0xD800 ≤ n && n < 0xF900)
      && n < 0x1F000)

inductive Mode where
  | start
  | subject (start : Nat)
  | span (start : Nat)
  | field (start : Nat)
  | fields
  | bracketed
  | level (start : Nat)

structure Reading where
  mode : Mode
  directive : Directive

def slice (cs : List Char) (first last : Nat) : List Char := (cs.drop first).take (last - first)

def fieldMatch? (cs : List Char) : Option FieldMatch :=
  let isName (c : Char) : Bool := c != '='
  let name := String.ofList (cs.takeWhile isName)
  if cs.isEmpty then none
  else if cs.all isName then some ⟨name, none⟩
  else (ValueMatch.ofText? (((cs.dropWhile isName).drop 1).takeWhile isName)).map fun value =>
    ⟨name, some value⟩

def step (cs : List Char) (r : Reading) (place : Nat) (c : Char) : Option Reading :=
  let d := r.directive
  let text (start : Nat) : String := String.ofList (slice cs start place)
  match r.mode with
  | .start =>
    if c = '[' then some ⟨.span (place + 1), d⟩
    else if c = '-' ∨ c = ':' ∨ c = '_' ∨ isAlphanumeric c then some ⟨.subject place, d⟩
    else none
  | .subject start =>
    if c = '=' then some ⟨.level (place + 1), { d with target := some (text start) }⟩
    else if c = '[' then some ⟨.span (place + 1), { d with target := some (text start) }⟩
    else some r
  | .span start =>
    if c = ']' then some ⟨.bracketed, { d with span := some (text start) }⟩
    else if c = '\x7b' then
      let name := text start
      some ⟨.field (place + 1), { d with span := if name.isEmpty then none else some name }⟩
    else some r
  | .field start =>
    if c = '\x7d' then
      (fieldMatch? (slice cs start place)).map fun field =>
        ⟨.fields, { d with fields := d.fields ++ [field] }⟩
    else some r
  | .fields => if c = ']' then some ⟨.bracketed, d⟩ else none
  | .bracketed => if c = '=' then some ⟨.level (place + 1), d⟩ else none
  | .level _ => some r

def finish (cs : List Char) (r : Reading) : Option Directive :=
  let d := r.directive
  match r.mode with
  | .subject start =>
    match Threshold.ofText? (cs.drop start) with
    | some threshold => some { d with threshold := threshold }
    | none => some { d with target := some (String.ofList (cs.drop start)) }
  | .level start =>
    if (cs.drop start).isEmpty then some d
    else (Threshold.ofText? (cs.drop start)).map fun threshold => { d with threshold := threshold }
  | .bracketed => some d
  | _ => none

/-- The directive that a text between commas denotes. Blanks around it are passed over, but the
places of its parts are counted from the start of the text. -/
def ofText? (cs : List Char) : Option Directive := do
  let start : Reading := ⟨.start, ⟨none, none, [], Level.trace.rank⟩⟩
  let r ← ((Text.core cs).zipIdx).foldlM (fun r entry => step cs r entry.2 entry.1) start
  finish cs r

end Directive
end MergeTrial.Log
