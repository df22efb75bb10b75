import MergeTrial.Shell.Pattern

/-! What a script is made of: commands, redirections, and words that are made of pieces. -/

namespace MergeTrial.Shell

/-- What a parameter without a value stands for: another word, that word from now on, an error with
that word as its message, or, the other way round, nothing while one with a value stands for the
other word. -/
inductive Fallback where
  | other
  | assigned
  | error
  | alternative
  deriving DecidableEq, Inhabited

inductive Opening where
  | input
  | truncate
  | append
  | clobber
  | both
  deriving DecidableEq, Inhabited

mutual

/-- A piece of a word. Marks stand where quotes open and close, so that a word of quotes alone is
still there. -/
inductive Piece where
  | char (c : Char) (quoted : Bool)
  | mark
  | value (name : Raw) (use : Use) (quoted : Bool)
  | output (commands : Command) (quoted : Bool)
  | result (expression : List Piece) (quoted : Bool)

inductive Use where
  | plain
  | length
  | malformed
  | fallback (kind : Fallback) (ifEmpty : Bool) (word : List Piece)
  | trim (kind : Trim) (pattern : List Piece)

/-- Commands know the line that they start on, as far as messages about them name it. -/
inductive Command where
  | nothing
  | simple (line : Nat) (assignments : List (Raw × List Piece)) (words : List (List Piece))
      (redirects : List Redirect)
  | pipeline (commands : List Command)
  | negation (command : Command)
  | both (first second : Command)
  | either (first second : Command)
  | sequence (first second : Command)
  | background (command : Command)
  | subshell (line : Nat) (body : Command) (redirects : List Redirect)
  | redirected (line : Nat) (body : Command) (redirects : List Redirect)
  | choice (test success failure : Command)
  | loop (untilSuccess : Bool) (test body : Command)
  | each (line : Nat) (name : Raw) (words : Option (List (List Piece))) (body : Command)
  | select (line : Nat) (subject : List Piece) (arms : List (List (List Piece) × Command))
  | define (line : Nat) (name : Raw) (body : Command)

/-- A redirection of a descriptor: to a file, to what another descriptor stands for, or to a text
that is kept under a number. -/
inductive Redirect where
  | file (descriptor : Nat) (opening : Opening) (target : List Piece)
  | duplicate (descriptor : Nat) (target : List Piece)
  | document (descriptor : Nat) (number : Nat)

end

instance : Inhabited Command := ⟨.nothing⟩

instance : Inhabited Piece := ⟨.mark⟩

abbrev Word := List Piece

namespace Name

def starts (c : Char) : Bool := c.isAlpha || c == '_'

def continues (c : Char) : Bool := c.isAlphanum || c == '_'

def isName : Raw → Bool
  | [] => false
  | c :: rest => starts c && rest.all continues

def isSpecial (c : Char) : Bool := c.isDigit || "@*#?$!-".toList.contains c

end Name

namespace Word

def bare? (word : Word) : Option Raw :=
  word.mapM fun
    | .char c false => some c
    | _ => none

def letters (word : Word) : Raw :=
  word.filterMap fun
    | .char c _ => some c
    | _ => none

def assignment? (word : Word) : Option (Raw × Word) :=
  let isName : Piece → Bool
    | .char c false => Name.continues c
    | _ => false
  match word.dropWhile isName with
  | .char '=' false :: value =>
    let name := letters (word.takeWhile isName)
    if Name.isName name then some (name, value) else none
  | _ => none

end Word
end MergeTrial.Shell
