import MergeTrial.Json.Value

/-! The tokens of a JSON text, found by an automaton that looks at one character at a time. -/

namespace MergeTrial.Json

inductive Token where
  | openArray
  | closeArray
  | openObject
  | closeObject
  | comma
  | colon
  | scalar (value : Json)
  deriving Inhabited

inductive Stage where
  | sign
  | zero
  | whole
  | point
  | fraction
  | mark
  | markSign
  | power
  deriving DecidableEq

structure Numeral where
  stage : Stage
  negative : Bool
  digits : Nat
  places : Nat
  powerNegative : Bool
  power : Nat

namespace Numeral

def digit? (c : Char) : Option Nat := if c.isDigit then some (c.toNat - 48) else none

def start? (c : Char) : Option Numeral :=
  if c = '-' then some ⟨.sign, true, 0, 0, false, 0⟩
  else match digit? c with
    | some 0 => some ⟨.zero, false, 0, 0, false, 0⟩
    | some d => some ⟨.whole, false, d, 0, false, 0⟩
    | none => none

def push? (n : Numeral) (c : Char) : Option Numeral :=
  match n.stage, digit? c with
  | .sign, some 0 => some { n with stage := .zero }
  | .sign, some d => some { n with stage := .whole, digits := d }
  | .whole, some d => some { n with digits := n.digits * 10 + d }
  | .point, some d | .fraction, some d =>
    some { n with stage := .fraction, digits := n.digits * 10 + d, places := n.places + 1 }
  | .mark, some d | .markSign, some d | .power, some d =>
    some { n with stage := .power, power := n.power * 10 + d }
  | .zero, none | .whole, none =>
    if c = '.' then some { n with stage := .point }
    else if c = 'e' ∨ c = 'E' then some { n with stage := .mark }
    else none
  | .fraction, none => if c = 'e' ∨ c = 'E' then some { n with stage := .mark } else none
  | .mark, none =>
    if c = '+' then some { n with stage := .markSign }
    else if c = '-' then some { n with stage := .markSign, powerNegative := true }
    else none
  | _, _ => none

def value? (n : Numeral) : Option Json :=
  let power : Int := if n.powerNegative then -(n.power : Int) else n.power
  match n.stage with
  | .zero | .whole =>
    some (if n.negative then
        if n.digits = 0 then .decimal ⟨true, 0, 0, 0⟩ else .int (-(n.digits : Int))
      else .int n.digits)
  | .fraction | .power => some (.decimal ⟨n.negative, n.digits, n.places, power⟩)
  | .sign | .point | .mark | .markSign => none

end Numeral

inductive Piece where
  | char (c : Char)
  | unit (code : Nat)

def joinPieces : List Piece → Option (List Char)
  | [] => some []
  | .char c :: rest => (joinPieces rest).map (c :: ·)
  | .unit high :: .unit low :: rest =>
    if 0xD800 ≤ high ∧ high < 0xDC00 then
      if 0xDC00 ≤ low ∧ low < 0xE000 then
        let code := 0x10000 + (high - 0xD800) * 0x400 + (low - 0xDC00)
        (joinPieces rest).map (Char.ofNat code :: ·)
      else none
    else if 0xDC00 ≤ high ∧ high < 0xE000 then none
    else (joinPieces (.unit low :: rest)).map (Char.ofNat high :: ·)
  | .unit code :: rest =>
    if 0xD800 ≤ code ∧ code < 0xE000 then none
    else (joinPieces rest).map (Char.ofNat code :: ·)

def hexValue? (c : Char) : Option Nat :=
  if c.isDigit then some (c.toNat - 48)
  else if 'a' ≤ c ∧ c ≤ 'f' then some (c.toNat - 87)
  else if 'A' ≤ c ∧ c ≤ 'F' then some (c.toNat - 55)
  else none

def shortEscape? (c : Char) : Option Char :=
  match c with
  | '"' | '\\' | '/' => some c
  | 'b' => some '\x08'
  | 'f' => some '\x0c'
  | 'n' => some '\n'
  | 'r' => some '\r'
  | 't' => some '\t'
  | _ => none

inductive Mode where
  | idle
  | word (rest : List Char) (value : Json)
  | numeral (n : Numeral)
  | string (pieces : List Piece)
  | escape (pieces : List Piece)
  | hex (pieces : List Piece) (due code : Nat)

structure Lexer where
  tokens : List Token
  mode : Mode

namespace Lexer

def emit (tokens : List Token) (token : Token) : Lexer := ⟨token :: tokens, .idle⟩

def between (tokens : List Token) (c : Char) : Option Lexer :=
  match c with
  | ' ' | '\t' | '\n' | '\r' => some ⟨tokens, .idle⟩
  | '[' => some (emit tokens .openArray)
  | ']' => some (emit tokens .closeArray)
  | '\x7b' => some (emit tokens .openObject)
  | '\x7d' => some (emit tokens .closeObject)
  | ',' => some (emit tokens .comma)
  | ':' => some (emit tokens .colon)
  | '"' => some ⟨tokens, .string []⟩
  | 'n' => some ⟨tokens, .word "ull".toList .null⟩
  | 't' => some ⟨tokens, .word "rue".toList (.bool true)⟩
  | 'f' => some ⟨tokens, .word "alse".toList (.bool false)⟩
  | _ => (Numeral.start? c).map fun n => ⟨tokens, .numeral n⟩

def step (l : Lexer) (c : Char) : Option Lexer :=
  match l.mode with
  | .idle => between l.tokens c
  | .word [] _ => none
  | .word [letter] value => if c = letter then some (emit l.tokens (.scalar value)) else none
  | .word (letter :: rest) value =>
    if c = letter then some ⟨l.tokens, .word rest value⟩ else none
  | .numeral n =>
    match n.push? c with
    | some n => some ⟨l.tokens, .numeral n⟩
    | none => n.value?.bind fun value => between (.scalar value :: l.tokens) c
  | .string pieces =>
    if c = '"' then
      some (emit l.tokens (.scalar (.string ((joinPieces pieces.reverse).map String.ofList))))
    else if c = '\\' then some ⟨l.tokens, .escape pieces⟩
    else if c.toNat < 32 then none
    else some ⟨l.tokens, .string (.char c :: pieces)⟩
  | .escape pieces =>
    if c = 'u' then some ⟨l.tokens, .hex pieces 4 0⟩
    else (shortEscape? c).map fun d => ⟨l.tokens, .string (.char d :: pieces)⟩
  | .hex pieces due code =>
    (hexValue? c).map fun d =>
      if due ≤ 1 then ⟨l.tokens, .string (.unit (code * 16 + d) :: pieces)⟩
      else ⟨l.tokens, .hex pieces (due - 1) (code * 16 + d)⟩

def finish (l : Lexer) : Option (List Token) :=
  match l.mode with
  | .idle => some l.tokens.reverse
  | .numeral n => n.value?.map fun value => (Token.scalar value :: l.tokens).reverse
  | _ => none

end Lexer

def tokens? (cs : List Char) : Option (List Token) :=
  (cs.foldlM Lexer.step ⟨[], .idle⟩).bind Lexer.finish

end MergeTrial.Json
