import MergeTrial.Shell.Command

/-! Expressions over whole numbers of 64 bits, as scripts compute with them. -/

namespace MergeTrial.Shell

inductive Operator where
  | mul | div | rem | add | sub | shiftLeft | shiftRight
  | less | lessEq | greater | greaterEq | equal | unequal
  | bitAnd | bitXor | bitOr
  deriving DecidableEq, Inhabited

inductive Unary where
  | minus | logicalNot | bitNot
  deriving DecidableEq, Inhabited

inductive Expression where
  | number (n : Int)
  | variable (name : Raw)
  | unary (op : Unary) (e : Expression)
  | binary (op : Operator) (left right : Expression)
  | and (left right : Expression)
  | or (left right : Expression)
  | cond (test success failure : Expression)
  | assign (name : Raw) (op : Option Operator) (e : Expression)
  /-- The text goes on wrong here, after an expression or in place of one. What comes before is
  computed first, and so its faults count more. -/
  | broken (before : Option Expression) (expected : String)
  deriving Inhabited

namespace Arithmetic

def wrap (n : Int) : Int := n.bmod 18446744073709551616

def ofBool (b : Bool) : Int := if b then 1 else 0

def bits (n : Int) : Nat := (n % 18446744073709551616).toNat

def shift (n : Int) : Nat := bits n % 64

def Operator.apply? (op : Operator) (a b : Int) : Option Int :=
  match op with
  | .mul => some (wrap (a * b))
  | .div => if b = 0 then none else some (wrap (Int.tdiv a b))
  | .rem => if b = 0 then none else some (wrap (Int.tmod a b))
  | .add => some (wrap (a + b))
  | .sub => some (wrap (a - b))
  | .shiftLeft => some (wrap ((bits a <<< shift b : Nat) : Int))
  | .shiftRight => some (a >>> shift b)
  | .less => some (ofBool (decide (a < b)))
  | .lessEq => some (ofBool (decide (a ≤ b)))
  | .greater => some (ofBool (decide (b < a)))
  | .greaterEq => some (ofBool (decide (b ≤ a)))
  | .equal => some (ofBool (a == b))
  | .unequal => some (ofBool (a != b))
  | .bitAnd => some (wrap ((bits a &&& bits b : Nat) : Int))
  | .bitXor => some (wrap ((bits a ^^^ bits b : Nat) : Int))
  | .bitOr => some (wrap ((bits a ||| bits b : Nat) : Int))

def Unary.apply (op : Unary) (a : Int) : Int :=
  match op with
  | .minus => wrap (-a)
  | .logicalNot => ofBool (a == 0)
  | .bitNot => wrap (-a - 1)

/-! Numbers as texts -/

def digit? (base : Nat) (c : Char) : Option Nat :=
  let n := if c.isDigit then some (c.toNat - 48)
    else if c.isAlpha then some (c.toLower.toNat - 87)
    else none
  n.filter (· < base)

def digits (base : Nat) (cs : Raw) : Option (Nat × Raw) :=
  let isDigit (c : Char) : Bool := (digit? base c).isSome
  let found := cs.takeWhile isDigit
  if found.isEmpty then none
  else some ((found.filterMap (digit? base)).foldl (fun n d => n * base + d) 0,
    cs.dropWhile isDigit)

def unsigned (cs : Raw) : Option (Nat × Raw) :=
  match cs with
  | '0' :: 'x' :: rest | '0' :: 'X' :: rest => (digits 16 rest).or (some (0, 'x' :: rest))
  | '0' :: _ => digits 8 cs
  | _ => digits 10 cs

/-- The number that a text holds with nothing else but spaces, if it fits into 64 bits; nothing
at all counts as zero if `blank` allows that. -/
def ofText? (decimal blank : Bool) (text : Raw) : Option Int :=
  let cs := text.dropWhile Raw.isSpace
  let (negative, cs) := match cs with
    | '-' :: rest => (true, rest)
    | '+' :: rest => (false, rest)
    | _ => (false, cs)
  match if decimal then digits 10 cs else unsigned cs with
  | some (n, rest) =>
    let value : Int := if negative then -(n : Int) else n
    if rest.all Raw.isSpace && decide (wrap value = value) then some value else none
  | none => if blank && text.all Raw.isSpace then some 0 else none

/-! Reading expressions -/

inductive Token where
  | number (n : Int)
  | name (name : Raw)
  | op (text : String)
  deriving DecidableEq, Inhabited

def largest : Nat := 9223372036854775807

def operators : List String :=
  ["<<=", ">>=", "<<", ">>", "<=", ">=", "==", "!=", "&&", "||", "*=", "/=", "%=", "+=", "-=", "&=",
    "^=", "|=", "*", "/", "%", "+", "-", "<", ">", "=", "&", "^", "|", "!", "~", "?", ":", "(", ")"]

def tokensFrom : Nat → Raw → List Token
  | _, [] => []
  | skip + 1, _ :: rest => tokensFrom skip rest
  | 0, c :: rest =>
    if Raw.isSpace c then tokensFrom 0 rest
    else if c.isDigit then
      match unsigned (c :: rest) with
      | some (n, after) => .number (min n largest) :: tokensFrom (rest.length - after.length) rest
      | none => .op (String.ofList [c]) :: tokensFrom 0 rest
    else if Name.starts c then
      let name := c :: rest.takeWhile Name.continues
      .name name :: tokensFrom (name.length - 1) rest
    else match operators.find? fun op => op.toList.isPrefixOf (c :: rest) with
      | some op => .op op :: tokensFrom (op.length - 1) rest
      | none => .op (String.ofList [c]) :: tokensFrom 0 rest

def binaryOf? : Token → Option (Nat × Operator)
  | .op "*" => some (0, .mul)
  | .op "/" => some (0, .div)
  | .op "%" => some (0, .rem)
  | .op "+" => some (1, .add)
  | .op "-" => some (1, .sub)
  | .op "<<" => some (2, .shiftLeft)
  | .op ">>" => some (2, .shiftRight)
  | .op "<" => some (3, .less)
  | .op "<=" => some (3, .lessEq)
  | .op ">" => some (3, .greater)
  | .op ">=" => some (3, .greaterEq)
  | .op "==" => some (4, .equal)
  | .op "!=" => some (4, .unequal)
  | .op "&" => some (5, .bitAnd)
  | .op "^" => some (6, .bitXor)
  | .op "|" => some (7, .bitOr)
  | _ => none

def levels : Nat := 8

def assignmentOf? : Token → Option (Option Operator)
  | .op "=" => some none
  | .op "*=" => some (some .mul)
  | .op "/=" => some (some .div)
  | .op "%=" => some (some .rem)
  | .op "+=" => some (some .add)
  | .op "-=" => some (some .sub)
  | .op "<<=" => some (some .shiftLeft)
  | .op ">>=" => some (some .shiftRight)
  | .op "&=" => some (some .bitAnd)
  | .op "^=" => some (some .bitXor)
  | .op "|=" => some (some .bitOr)
  | _ => none

abbrev Reader := List Token → Expression × List Token

def brokenAt (before : Option Expression) (expected : String) : Expression × List Token :=
  (.broken before expected, [])

def primary (whole : Reader) : Nat → Reader
  | 0, _ => brokenAt none "expecting primary"
  | n + 1, tokens =>
    let signed (op : Unary) (rest : List Token) : Expression × List Token :=
      let (e, rest) := primary whole n rest
      (.unary op e, rest)
    match tokens with
    | .number k :: rest => (.number k, rest)
    | .name name :: rest => (.variable name, rest)
    | .op "(" :: rest =>
      match whole rest with
      | (e, .op ")" :: rest) => (e, rest)
      | (e, _) => brokenAt (some e) "expecting ')'"
    | .op "+" :: rest => primary whole n rest
    | .op "-" :: rest => signed .minus rest
    | .op "!" :: rest => signed .logicalNot rest
    | .op "~" :: rest => signed .bitNot rest
    | _ => brokenAt none "expecting primary"

def chain (operand : Reader) (level : Nat) : Nat → Expression → Reader
  | 0, left, tokens => (left, tokens)
  | n + 1, left, tokens =>
    match tokens with
    | t :: rest =>
      match binaryOf? t with
      | some (l, op) =>
        if l = level then
          let (right, rest) := operand rest
          chain operand level n (.binary op left right) rest
        else (left, tokens)
      | none => (left, tokens)
    | [] => (left, tokens)

def binaries (operand : Reader) : Nat → Reader
  | 0, tokens => operand tokens
  | level + 1, tokens =>
    let (left, rest) := binaries operand level tokens
    chain (binaries operand level) level rest.length left rest

def logical (operand : Reader) (op : String) (join : Expression → Expression → Expression) :
    Nat → Reader
  | 0, tokens => operand tokens
  | n + 1, tokens =>
    match operand tokens with
    | (left, t :: rest) =>
      if t = .op op then
        let (right, rest) := logical operand op join n rest
        (join left right, rest)
      else (left, t :: rest)
    | result => result

def conditional (whole operand : Reader) : Nat → Reader
  | 0, tokens => operand tokens
  | n + 1, tokens =>
    match operand tokens with
    | (test, .op "?" :: rest) =>
      match whole rest with
      | (success, .op ":" :: rest) =>
        let (failure, rest) := conditional whole operand n rest
        (.cond test success failure, rest)
      | (success, _) => (.cond test success (.broken none "expecting ':'"), [])
    | result => result

def assignment : Nat → Reader
  | 0, _ => brokenAt none "expecting primary"
  | n + 1, tokens =>
    let whole := assignment n
    let plain : Reader := fun tokens =>
      let size := tokens.length
      let operand := binaries (primary whole (size + 1)) levels
      let both := logical operand "&&" .and size
      conditional whole (logical both "||" .or size) size tokens
    match tokens with
    | .name name :: t :: rest =>
      match assignmentOf? t with
      | some op =>
        let (e, rest) := whole rest
        (.assign name op e, rest)
      | none => plain tokens
    | _ => plain tokens

def read (text : Raw) : Expression :=
  let tokens := tokensFrom 0 text
  match assignment (tokens.length + 1) tokens with
  | (e, []) => e
  | (e, _) => .broken (some e) "expecting EOF"

/-! Values -/

/-- What stops a computation: a variable that holds no number, or a fault of the expression. -/
inductive Trouble where
  | illegal (text : Raw)
  | fault (message : String)

/-- The variables that have been assigned to, the last first. -/
abbrev Computation (α : Type) := StateT (List (Raw × Raw)) (Except Trouble) α

def lookup (value : Raw → Option Raw) (name : Raw) : Computation Int := do
  let text := (((← get).lookup name).or (value name)).getD []
  match ofText? false true text with
  | some n => return n
  | none => throw (.illegal text)

def apply (op : Operator) (a b : Int) : Computation Int :=
  match Operator.apply? op a b with
  | some n => return n
  | none => throw (.fault "division by zero")

def mistake? : Expression → Option String
  | .number _ | .variable _ => none
  | .unary _ e | .assign _ _ e => mistake? e
  | .binary _ a b | .and a b | .or a b => (mistake? a).or (mistake? b)
  | .cond a b c => ((mistake? a).or (mistake? b)).or (mistake? c)
  | .broken (some e) expected => (mistake? e).or (some expected)
  | .broken none expected => some expected

def skipping (e : Expression) (n : Int) : Computation Int :=
  match mistake? e with
  | some expected => throw (.fault expected)
  | none => return n

def evaluate (value : Raw → Option Raw) : Expression → Computation Int
  | .number n => return n
  | .variable name => lookup value name
  | .unary op e => do return Unary.apply op (← evaluate value e)
  | .binary op a b => do
    let a ← evaluate value a
    let b ← evaluate value b
    apply op a b
  | .and a b => do
    if (← evaluate value a) = 0 then skipping b 0 else return ofBool ((← evaluate value b) != 0)
  | .or a b => do
    if (← evaluate value a) ≠ 0 then skipping b 1 else return ofBool ((← evaluate value b) != 0)
  | .cond a b c => do
    if (← evaluate value a) ≠ 0 then
      let n ← evaluate value b
      skipping c n
    else
      let _ ← skipping b 0
      evaluate value c
  | .broken (some e) expected => do
    let _ ← evaluate value e
    throw (.fault expected)
  | .broken none expected => throw (.fault expected)
  | .assign name op e => do
    let n ← evaluate value e
    let n ← match op with
      | some op => do apply op (← lookup value name) n
      | none => pure n
    modify ((name, Raw.ofInt n) :: ·)
    return n

end Arithmetic
end MergeTrial.Shell
