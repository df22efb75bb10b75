import MergeTrial.Shell.Reader.Word

/-! Reading commands: tokens, the documents that follow a line, and the grammar of lists, pipelines
and compound commands. -/

namespace MergeTrial.Shell

namespace Readers
open Parse

def skipBlanks : Parse Unit :=
  repeatStep (fun (_ : Unit) => do
    match ← peek with
    | some ' ' | some '\t' =>
      let _ ← nextRaw
      return .inl ()
    | some '#' =>
      modify fun r => { r with rest := r.rest.dropWhile (· != '\n') }
      return .inl ()
    | _ => return .inr ()) ()

def operation (first : Char) : Parse Operation := do
  if first = '>' then
    if ← accept '>' then return .file .append
    else if ← accept '|' then return .file .clobber
    else if ← accept '&' then return .duplicate
    else return .file .truncate
  else if ← accept '<' then return .document (← accept '-')
  else if ← accept '&' then return .duplicate
  else if ← accept '>' then return .file .both
  else return .file .input

def redirectToken (descriptor : Option Nat) (first : Char) : Parse Token := do
  let _ ← nextRaw
  return .redirect (descriptor.getD (if first = '<' then 0 else 1)) (← operation first)

def wordToken (readers : Readers) (context : Context) : Parse Token := do
  let (word, quoted) ← readers.pieces context
  match word, quoted, ← peek with
  | [.char d false], false, some c =>
    if d.isDigit ∧ (c = '<' ∨ c = '>') then redirectToken (some (Raw.digitValue d)) c
    else return .word word quoted
  | _, _, _ => return .word word quoted

def plainToken (readers : Readers) (context : Context) : Parse Token := do
  let r ← get
  match r.back with
  | some t =>
    set { r with back := none }
    return t
  | none =>
    skipBlanks
    let single (t : Token) : Parse Token := do
      let _ ← nextRaw
      return t
    let double (c : Char) (one two : Token) : Parse Token := do
      let _ ← nextRaw
      return if ← accept c then two else one
    match ← peek with
    | none => return .finish
    | some '\n' => single .newline
    | some '&' => double '&' .ampersand .both
    | some '|' => double '|' .pipe .either
    | some ';' => double ';' .semicolon .armEnd
    | some '(' => single .opening
    | some ')' => single .closing
    | some '<' => redirectToken none '<'
    | some '>' => redirectToken none '>'
    | some _ => wordToken readers context

def documentLines (awaited : Awaited) : List Raw → List Raw × List Raw
  | [] => ([], [])
  | line :: rest =>
    let line := if awaited.stripped then line.dropWhile (· == '\t') else line
    if line = awaited.delimiter then ([], rest)
    else
      let (body, after) := documentLines awaited rest
      (line :: body, after)

def documentText (text : Raw) (body after : List Raw) : Raw :=
  if after.isEmpty ∧ text.getLast? ≠ some '\n' ∧ body.length = (Raw.splitOn '\n' text).length then
    Raw.join ['\n'] body
  else Raw.unlines body

def readDocument (readers : Readers) (awaited : Awaited) : Parse Unit := do
  let r ← get
  let lines := Raw.splitOn '\n' r.rest
  let lines := if lines.getLast? = some [] then lines.dropLast else lines
  let (body, after) := documentLines awaited lines
  let ended := r.rest.getLast? = some '\n'
  let rest := if after.isEmpty then [] else
    Raw.join ['\n'] after ++ (if ended then ['\n'] else [])
  set { r with rest := rest, line := r.line + (lines.length - after.length) }
  let text := documentText r.rest body after
  let word ← if awaited.verbatim then pure (text.map fun c => Piece.char c true)
    else within text r.line do return (← readers.pieces .document).1
  modify fun r => { r with documents := (awaited.number, word) :: r.documents }

def readDocuments (readers : Readers) : Parse Unit := do
  let awaited := (← get).awaited
  modify fun r => { r with awaited := [] }
  awaited.forM (readDocument readers)

def asKeyword (keywords : Bool) : Token → Token
  | .word word false =>
    match keywords, word.bare? with
    | true, some name =>
      if Token.keywords.contains (String.ofList name) then .keyword name else .word word false
    | _, _ => .word word false
  | t => t

def leaveReplaced : Parse Bool := do
  let r ← get
  let (used, others) := r.replaced.partition fun text => r.rest.length < text.left
  set { r with replaced := others }
  return used.any (·.opensNext)

def replaceWord (word : Word) : Parse Bool := do
  let r ← get
  match word.bare?.bind fun name => (r.aliases.lookup name).map fun text => (name, text) with
  | none => return false
  | some (name, text) =>
    if r.replaced.any (·.name == name) then return false
    else
      let opensNext := text.getLast?.any Raw.isBlank
      set { r with
        rest := text ++ r.rest
        replaced := ⟨name, r.rest.length, opensNext⟩ :: r.replaced }
      return true

def tokenIn (readers : Readers) (context : Context) : Parse Token := do
  let checks := (← get).checks
  let isNew := (← get).back.isNone
  check false false false
  repeatStep (fun (aliases : Bool) => do
    match checks.newlines, ← plainToken readers context with
    | true, .newline =>
      readDocuments readers
      return .inl aliases
    | _, t =>
      let aliases := (← leaveReplaced) || aliases
      match asKeyword checks.keywords t with
      | .word word false =>
        if ← (if aliases && isNew then replaceWord word else pure false) then return .inl aliases
        else return .inr (.word word false)
      | t => return .inr t) checks.aliases

def token (readers : Readers) : Parse Token := tokenIn readers .bare

def expect (readers : Readers) (name : String) : Parse Unit := do
  let t ← token readers
  if !t.isKeyword name then Parse.unexpected t (some name)

def redirect (readers : Readers) (descriptor : Nat) (operation : Operation) : Parse Redirect := do
  let context := match operation with
    | .document _ => Context.delimiter
    | _ => .bare
  match ← tokenIn readers context with
  | .word word quoted =>
    match operation with
    | .file opening => return .file descriptor opening word
    | .duplicate => return .duplicate descriptor word
    | .document stripped =>
      let number := (← get).count
      let awaited : Awaited := ⟨number, word.letters, stripped, quoted⟩
      modify fun r => { r with awaited := r.awaited ++ [awaited], count := number + 1 }
      return .document descriptor number
  | t => Parse.unexpected t none

def redirects (readers : Readers) : Parse (List Redirect) :=
  repeatStep (fun (found : List Redirect) => do
    check false true true
    match ← token readers with
    | .redirect descriptor operation =>
      return .inl (found ++ [← redirect readers descriptor operation])
    | t =>
      giveBack t
      return .inr found) []

structure Parts where
  assignments : List (Raw × Word)
  words : List Word
  redirects : List Redirect

def specialBuiltins : List String :=
  [".", ":", "break", "continue", "eval", "exec", "exit", "export", "local", "readonly", "return",
    "set", "shift", "times", "trap", "unset"]

def definition (readers : Readers) (command : Parse Command) (name : Word) : Parse Command := do
  match ← token readers with
  | .closing =>
    match name.bare? with
    | some letters =>
      if !Name.isName letters || specialBuiltins.contains (String.ofList letters) then
        fail "Bad function name"
      else
        check true true true
        let line := (← get).line
        return .define line letters (← command)
    | none => fail "Bad function name"
  | t => Parse.unexpected t (some ")")

def simple (readers : Readers) (command : Parse Command) : Parse Command := do
  let start := (← get).line
  repeatStep (fun (parts : Parts) => do
    let finish (t : Token) : Parse (Parts ⊕ Command) := do
      giveBack t
      return .inr (.simple start parts.assignments parts.words parts.redirects)
    if parts.words.isEmpty then check false false true
    match ← token readers with
    | .word word _ =>
      match parts.words, word.assignment? with
      | [], some assignment =>
        return .inl { parts with assignments := parts.assignments ++ [assignment] }
      | _, _ => return .inl { parts with words := parts.words ++ [word] }
    | .redirect descriptor operation =>
      let r ← redirect readers descriptor operation
      return .inl { parts with redirects := parts.redirects ++ [r] }
    | .opening =>
      match parts with
      | ⟨[], [name], []⟩ => return .inr (← definition readers command name)
      | _ => finish .opening
    | t => finish t) ⟨[], [], []⟩

def body (readers : Readers) : Parse Command := do
  return (← readers.list .body).getD .nothing

def choiceFrom (readers : Readers) : Parse Command := do
  let branches ← repeatStep (fun (found : List (Command × Command)) => do
    let test ← body readers
    expect readers "then"
    let success ← body readers
    let found := (test, success) :: found
    let t ← token readers
    if t.isKeyword "elif" then return .inl found
    else if t.isKeyword "else" then
      let last ← body readers
      return .inr (found, last)
    else
      giveBack t
      return .inr (found, .nothing)) []
  return branches.1.foldl (fun rest branch => .choice branch.1 branch.2 rest) branches.2

def eachWords (readers : Readers) : Parse (List Word) :=
  repeatStep (fun (words : List Word) => do
    match ← token readers with
    | .word word _ => return .inl (words ++ [word])
    | .newline =>
      readDocuments readers
      return .inr words
    | .semicolon => return .inr words
    | t => Parse.unexpected t none) []

def eachLoop (readers : Readers) (line : Nat) : Parse Command := do
  match ← token readers with
  | .word word false =>
    match word.bare? with
    | some name =>
      if !Name.isName name then fail "Bad for loop variable"
      else
        check true true true
        let t ← token readers
        let words ← if t.isKeyword "in" then some <$> eachWords readers
          else
            match t with
            | .semicolon => pure none
            | t =>
              giveBack t
              pure none
        check true true true
        expect readers "do"
        return .each line name words (← body readers)
    | none => fail "Bad for loop variable"
  | _ => fail "Bad for loop variable"

def patternOf : Token → Word
  | .word word _ => word
  | .keyword name => name.map fun c => .char c false
  | _ => []

def patterns (readers : Readers) (first : Token) : Parse (List Word) :=
  repeatStep (fun (found : List Word) => do
    match ← token readers with
    | .pipe =>
      let t ← token readers
      return .inl (found ++ [patternOf t])
    | .closing => return .inr found
    | t => Parse.unexpected t (some ")")) [patternOf first]

def arms (readers : Readers) : Parse (List (List Word × Command)) :=
  repeatStep (fun (found : List (List Word × Command)) => do
    check true true false
    let t ← token readers
    if t.isKeyword "esac" then return .inr found
    else
      let t ← match t with
        | .opening => token readers
        | t => pure t
      let accepted ← patterns readers t
      let commands := (← readers.list .arm).getD .nothing
      let found := found ++ [(accepted, commands)]
      check true true true
      match ← token readers with
      | .armEnd => return .inl found
      | t =>
        if t.isKeyword "esac" then return .inr found
        else Parse.unexpected t (some ";;")) []

def selection (readers : Readers) (line : Nat) : Parse Command := do
  match ← token readers with
  | .word subject _ =>
    check true true true
    expect readers "in"
    return .select line subject (← arms readers)
  | t => Parse.unexpected t (some "word")

def withRedirects (readers : Readers) (line : Nat) (command : Command) : Parse Command := do
  match ← redirects readers with
  | [] => return command
  | found => return .redirected line command found

def commandWith (readers : Readers) (again : Parse Command) : Parse Command := do
  let line := (← get).line
  let t ← token readers
  match t with
  | .word .. | .redirect .. =>
    giveBack t
    simple readers again
  | .opening =>
    let commands ← body readers
    match ← token readers with
    | .closing => return .subshell line commands (← redirects readers)
    | t => Parse.unexpected t (some ")")
  | _ =>
    if t.isKeyword "if" then
      let command ← choiceFrom readers
      expect readers "fi"
      withRedirects readers line command
    else if t.isKeyword "while" ∨ t.isKeyword "until" then
      let test ← body readers
      expect readers "do"
      let commands ← body readers
      expect readers "done"
      withRedirects readers line (.loop (t.isKeyword "until") test commands)
    else if t.isKeyword "for" then
      let command ← eachLoop readers line
      expect readers "done"
      withRedirects readers line command
    else if t.isKeyword "case" then
      withRedirects readers line (← selection readers line)
    else if t.isKeyword "\x7b" then
      let commands ← body readers
      expect readers "\x7d"
      withRedirects readers line commands
    else Parse.unexpected t none

def commandFrom (readers : Readers) : Nat → Parse Command
  | 0 => fail "out of steps"
  | n + 1 => commandWith readers (commandFrom readers n)

def command (readers : Readers) : Parse Command := do
  commandFrom readers (← get).steps

def pipeline (readers : Readers) : Parse Command := do
  let t ← token readers
  let negated := t.isKeyword "!"
  if negated then check false true true else giveBack t
  let first ← command readers
  let commands ← repeatStep (fun (found : List Command) => do
    match ← token readers with
    | .pipe =>
      check true true true
      return .inl ((← command readers) :: found)
    | t =>
      giveBack t
      return .inr found.reverse) [first]
  let result := match commands with
    | [one] => one
    | _ => .pipeline commands
  return if negated then .negation result else result

def andOr (readers : Readers) : Parse Command := do
  let first ← pipeline readers
  repeatStep (fun (left : Command) => do
    let more (join : Command → Command → Command) : Parse (Command ⊕ Command) := do
      check true true true
      return .inl (join left (← pipeline readers))
    match ← token readers with
    | .both => more .both
    | .either => more .either
    | t =>
      giveBack t
      return .inr left) first

def listOf (readers : Readers) (extent : Extent) : Parse (Option Command) := do
  let atLine := match extent with
    | .line => true
    | _ => false
  let join (left : Option Command) (right : Command) : Option Command :=
    match left with
    | none => some right
    | some left => some (.sequence left right)
  let begin := match extent with
    | .arm => true
    | _ => false
  repeatStep (fun (state : Option Command × Bool) => do
    let (found, mayEnd) := state
    check (!atLine) true true
    match ← token readers with
    | .newline =>
      readDocuments readers
      return .inr (some (found.getD .nothing))
    | .finish =>
      readDocuments readers
      giveBack .finish
      return .inr found
    | t =>
      giveBack t
      if !atLine ∧ mayEnd ∧ t.endsList then return .inr found
      else
        let command ← andOr readers
        match ← token readers with
        | .ampersand => return .inl (join found (.background command), true)
        | .semicolon => return .inl (join found command, true)
        | .finish =>
          readDocuments readers
          giveBack .finish
          return .inr (join found command)
        | .newline =>
          giveBack .newline
          return .inl (join found command, true)
        | t =>
          if atLine then Parse.unexpected t none
          else
            giveBack t
            return .inr (join found command)) (none, begin)

end Readers

def Readers.nested : Nat → Readers
  | 0 => ⟨fun _ => Parse.fail "out of steps", fun _ => Parse.fail "out of steps"⟩
  | n + 1 => ⟨(nested n).listOf, (nested n).piecesOf⟩

namespace Reading

def start (text : Raw) (count : Nat) : Reading :=
  ⟨text, 1, none, ⟨false, false, false⟩, [], [], count, [], []⟩

def next? (r : Reading) : Except Misreading (Option Command × Reading) :=
  ((Readers.nested r.steps).list .line).run { r with back := none }

end Reading
end MergeTrial.Shell
