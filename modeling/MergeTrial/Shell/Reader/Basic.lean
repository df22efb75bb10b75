import MergeTrial.Shell.Command

/-! The state of reading a script, and the tokens that it is made of. -/

namespace MergeTrial.Shell

inductive Operation where
  | file (opening : Opening)
  | duplicate
  | document (stripped : Bool)
  deriving Inhabited

inductive Token where
  | finish
  | newline
  | semicolon
  | ampersand
  | both
  | either
  | pipe
  | opening
  | closing
  | armEnd
  | redirect (descriptor : Nat) (operation : Operation)
  | keyword (name : Raw)
  | word (word : Word) (quoted : Bool)
  deriving Inhabited

namespace Token

def keywords : List String :=
  ["!", "case", "do", "done", "elif", "else", "esac", "fi", "for", "if", "in", "then", "until",
    "while", "\x7b", "\x7d"]

def shown : Token → String
  | .finish => "end of file"
  | .newline => "newline"
  | .semicolon => "\";\""
  | .ampersand => "\"&\""
  | .both => "\"&&\""
  | .either => "\"||\""
  | .pipe => "\"|\""
  | .opening => "\"(\""
  | .closing => "\")\""
  | .armEnd => "\";;\""
  | .redirect .. => "redirection"
  | .keyword name => "\"" ++ String.ofList name ++ "\""
  | .word .. => "word"

def isKeyword (t : Token) (name : String) : Bool :=
  match t with
  | .keyword k => k == name.toList
  | _ => false

def endsList : Token → Bool
  | .finish | .closing | .armEnd => true
  | .keyword name =>
    ["do", "done", "elif", "else", "esac", "fi", "then", "\x7d"].contains (String.ofList name)
  | _ => false

end Token

structure Checks where
  newlines : Bool
  keywords : Bool
  aliases : Bool

structure Awaited where
  number : Nat
  delimiter : Raw
  stripped : Bool
  verbatim : Bool

/-- A text that has taken the place of a word: which word, how much is left after the text, and
whether the text ends with a blank, so that the next word may be replaced too. -/
structure Replaced where
  name : Raw
  left : Nat
  opensNext : Bool

structure Reading where
  rest : Raw
  line : Nat
  back : Option Token
  checks : Checks
  awaited : List Awaited
  documents : List (Nat × Word)
  count : Nat
  aliases : List (Raw × Raw)
  replaced : List Replaced

def Reading.steps (r : Reading) : Nat :=
  r.rest.length + 4 + (if r.aliases.isEmpty then 0 else 4096)

/-- Why a text is no script, and the line where that shows. -/
structure Misreading where
  line : Nat
  message : String
  deriving Inhabited

abbrev Parse (α : Type) := StateT Reading (Except Misreading) α

namespace Parse

def fail {α : Type} (message : String) : Parse α := do throw ⟨(← get).line, message⟩

def unexpected {α : Type} (t : Token) (expected : Option String) : Parse α :=
  fail (t.shown ++ " unexpected"
    ++ (match expected with
      | some "word" => " (expecting word)"
      | some name => " (expecting \"" ++ name ++ "\")"
      | none => ""))

def iterate {σ α : Type} : Nat → (σ → Parse (σ ⊕ α)) → σ → Parse α
  | 0, _, _ => fail "out of steps"
  | n + 1, step, s => do
    match ← step s with
    | .inl next => iterate n step next
    | .inr result => return result

def repeatStep {σ α : Type} (step : σ → Parse (σ ⊕ α)) (s : σ) : Parse α := do
  iterate (← get).steps step s

def nextRaw : Parse (Option Char) := do
  let r ← get
  match r.rest with
  | [] => return none
  | c :: rest =>
    set { r with rest := rest, line := if c = '\n' then r.line + 1 else r.line }
    return some c

def joined : Raw → Nat → Raw × Nat
  | '\\' :: '\n' :: rest, n => joined rest (n + 1)
  | rest, n => (rest, n)

def joinLines : Parse Unit := modify fun r =>
  let (rest, n) := joined r.rest 0
  { r with rest := rest, line := r.line + n }

def next : Parse (Option Char) := do
  joinLines
  nextRaw

def peek : Parse (Option Char) := do
  joinLines
  return (← get).rest.head?

def accept (c : Char) : Parse Bool := do
  if (← peek) = some c then
    let _ ← nextRaw
    return true
  else return false

def giveBack (t : Token) : Parse Unit := modify fun r => { r with back := some t }

def check (newlines keywords aliases : Bool) : Parse Unit :=
  modify fun r => { r with checks := ⟨newlines, keywords, aliases⟩ }

def within {α : Type} (text : Raw) (line : Nat) (action : Parse α) : Parse α := do
  let outer ← get
  set { outer with rest := text, line := line, back := none, awaited := [], replaced := [] }
  let result ← action
  modify fun r =>
    { r with rest := outer.rest, line := outer.line, back := outer.back, awaited := outer.awaited
             checks := outer.checks, replaced := outer.replaced }
  return result

end Parse

/-- How far a list of commands goes: to the end of a line, to a word that ends it, or the same for
one that may be empty. -/
inductive Extent where
  | line
  | body
  | arm

inductive Context where
  | bare
  | delimiter
  | braced
  | double
  | doubleBraced (document : Bool)
  | document
  | arithmetic
  deriving DecidableEq

structure Readers where
  list : Extent → Parse (Option Command)
  pieces : Context → Parse (Word × Bool)

end MergeTrial.Shell
