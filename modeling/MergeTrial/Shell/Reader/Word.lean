import MergeTrial.Shell.Reader.Basic

/-! Reading the pieces of words: quotes, parameters, and commands and expressions inside words. -/

namespace MergeTrial.Shell

structure Gathered where
  pieces : Word
  quoted : Bool
  depth : Nat

namespace Gathered

def empty : Gathered := ⟨[], false, 0⟩

def add (g : Gathered) (piece : Piece) : Gathered := { g with pieces := piece :: g.pieces }

def addAll (g : Gathered) (pieces : Word) : Gathered :=
  { g with pieces := pieces.reverse ++ g.pieces }

def result (g : Gathered) : Word × Bool := (g.pieces.reverse, g.quoted)

end Gathered

namespace Context

def isQuoted : Context → Bool
  | .bare | .delimiter | .braced => false
  | .double | .doubleBraced _ | .document | .arithmetic => true

def isBraced : Context → Bool
  | .braced | .doubleBraced _ => true
  | _ => false

def isBare : Context → Bool
  | .bare | .delimiter => true
  | _ => false

def quotes : Context → Bool
  | .bare | .delimiter | .braced => true
  | _ => false

def unfinished : Context → Option String
  | .bare | .delimiter | .document => none
  | .braced | .doubleBraced true => some "Missing '\x7d'"
  | .double | .doubleBraced false => some "Unterminated quoted string"
  | .arithmetic => some "Missing '))'"

def inner : Context → Context
  | .bare | .delimiter | .braced => .braced
  | .document => .doubleBraced true
  | .double | .arithmetic => .doubleBraced false
  | .doubleBraced inDocument => .doubleBraced inDocument

def keepsBackslash (context : Context) (c : Char) : Bool :=
  context.isQuoted && !(c == '\\' || c == '\x60' || c == '$'
    || (c == '"' && context != .document) || (c == '\x7d' && context.isBraced))

end Context

namespace Readers
open Parse

def nameRest (continues : Char → Bool) (start : Raw) : Parse Raw :=
  repeatStep (fun (name : Raw) => do
    match ← peek with
    | some c =>
      if continues c then
        let _ ← nextRaw
        return .inl (c :: name)
      else return .inr name.reverse
    | none => return .inr name.reverse) start.reverse

def useOf (readers : Readers) (context : Context) : Parse Use := do
  let word (context : Context) : Parse Word := do return (← readers.pieces context).1
  let fallback (ifEmpty : Bool) (c : Option Char) : Parse Use := do
    let kind? : Option Fallback := match c with
      | some '-' => some .other
      | some '=' => some .assigned
      | some '?' => some .error
      | some '+' => some .alternative
      | _ => none
    match kind? with
    | some kind => return .fallback kind ifEmpty (← word context.inner)
    | none =>
      if c = some '\x7d' ∧ !ifEmpty then return .plain
      else if c = some '\x7d' then return .malformed
      else
        let _ ← word context.inner
        return .malformed
  match ← next with
  | some ':' => fallback true (← next)
  | some '%' =>
    let kind := if ← accept '%' then Trim.longestBack else .shortestBack
    return .trim kind (← word .braced)
  | some '#' =>
    let kind := if ← accept '#' then Trim.longestFront else .shortestFront
    return .trim kind (← word .braced)
  | c => fallback false c

def malformed (readers : Readers) (context : Context) : Parse (Raw × Use) := do
  let _ ← readers.pieces context.inner
  return ([], .malformed)

def lengthOf (readers : Readers) (context : Context) : Parse (Raw × Use) := do
  let close (name : Raw) : Parse (Raw × Use) := do
    if ← accept '\x7d' then return (name, .length) else malformed readers context
  match ← peek with
  | some c =>
    if Name.starts c then close (← nameRest Name.continues [])
    else if c.isDigit then close (← nameRest Char.isDigit [])
    else
      let _ ← nextRaw
      if c ≠ '\x7d' ∧ (← peek) = some '\x7d' then
        if Name.isSpecial c then
          let _ ← nextRaw
          return ([c], .length)
        else malformed readers context
      else
        modify fun r => { r with rest := c :: r.rest }
        return (['#'], ← useOf readers context)
  | none => malformed readers context

def bracedParameter (readers : Readers) (context : Context) : Parse (Raw × Use) := do
  match ← next with
  | some c =>
    if Name.starts c then
      let name ← nameRest Name.continues [c]
      return (name, ← useOf readers context)
    else if c.isDigit then
      let name ← nameRest Char.isDigit [c]
      return (name, ← useOf readers context)
    else if c = '#' then lengthOf readers context
    else if Name.isSpecial c then return ([c], ← useOf readers context)
    else if c = '\x7d' then return ([], .malformed)
    else malformed readers context
  | none => malformed readers context

def backquoted (quoted : Bool) : Parse Raw :=
  repeatStep (fun (text : Raw) => do
    match ← next with
    | none => fail "EOF in backquote substitution"
    | some '\x60' => return .inr text.reverse
    | some '\\' =>
      match ← nextRaw with
      | none => return .inl ('\\' :: text)
      | some c =>
        if c = '\\' ∨ c = '\x60' ∨ c = '$' ∨ (quoted ∧ c = '"') then return .inl (c :: text)
        else return .inl (c :: '\\' :: text)
    | some c => return .inl (c :: text)) []

def commandsIn (readers : Readers) (text : Raw) : Parse Command :=
  within text 1 do return (← readers.list .arm).getD .nothing

def enclosed (readers : Readers) : Parse Command := do
  let outer := (← get).awaited
  modify fun r => { r with awaited := [] }
  let commands ← readers.list .arm
  let t := (← get).back.getD .finish
  modify fun r => { r with back := none }
  match t with
  | .closing =>
    modify fun r => { r with awaited := outer }
    return commands.getD .nothing
  | t => unexpected t (some ")")

def afterDollar (readers : Readers) (context : Context) : Parse Word := do
  let quoted := context.isQuoted
  match ← peek with
  | some '(' =>
    let _ ← nextRaw
    if ← accept '(' then
      return [.result (← readers.pieces .arithmetic).1 quoted]
    else return [.output (← enclosed readers) quoted]
  | some c =>
    if c = '\x7b' then
      let _ ← nextRaw
      let (name, use) ← bracedParameter readers context
      return [.value name use quoted]
    else if Name.starts c then
      return [.value (← nameRest Name.continues []) .plain quoted]
    else if Name.isSpecial c then
      let _ ← nextRaw
      return [.value [c] .plain quoted]
    else return [.char '$' quoted]
  | none => return [.char '$' quoted]

def singleQuoted : Parse Word :=
  repeatStep (fun (word : Word) => do
    match ← nextRaw with
    | none => fail "Unterminated quoted string"
    | some '\'' => return .inr word.reverse
    | some c => return .inl (.char c true :: word)) []

def isOperator (c : Char) : Bool := " \t\n;&|<>()".toList.contains c

def pieceStep (readers : Readers) (context : Context) (g : Gathered) :
    Parse (Gathered ⊕ Word × Bool) := do
  let quoted := context.isQuoted
  match ← peek with
  | none =>
    match context.unfinished with
    | some message => fail message
    | none => return .inr g.result
  | some c =>
    if context.isBare ∧ isOperator c then return .inr g.result
    else
      let _ ← nextRaw
      if c = '\\' then
        match ← nextRaw with
        | none => return .inl (g.add (.char '\\' true))
        | some d =>
          let g := if context.keepsBackslash d then g.add (.char '\\' true) else g
          return .inl { g.add (.char d true) with quoted := true }
      else if c = '\'' ∧ context.quotes then
        let word ← singleQuoted
        return .inl { (((g.add .mark).addAll word).add .mark) with quoted := true }
      else if c = '"' ∧ (context.quotes ∨ context.isBraced) then
        let (word, _) ← readers.pieces .double
        return .inl { (((g.add .mark).addAll word).add .mark) with quoted := true }
      else if c = '"' ∧ context = .double then return .inr g.result
      else if c = '\x7d' ∧ context.isBraced then return .inr g.result
      else if c = '$' ∧ context ≠ .delimiter then
        return .inl (g.addAll (← afterDollar readers context))
      else if c = '\x60' ∧ context ≠ .delimiter then
        let text ← backquoted quoted
        return .inl (g.add (.output (← commandsIn readers text) quoted))
      else if context = .arithmetic ∧ c = '(' then
        return .inl { g.add (.char c true) with depth := g.depth + 1 }
      else if context = .arithmetic ∧ c = ')' then
        if 0 < g.depth then return .inl { g.add (.char c true) with depth := g.depth - 1 }
        else if ← accept ')' then return .inr g.result
        else return .inl (g.add (.char c true))
      else return .inl (g.add (.char c quoted))

def piecesOf (readers : Readers) (context : Context) : Parse (Word × Bool) :=
  repeatStep (pieceStep readers context) .empty

end Readers
end MergeTrial.Shell
