import MergeTrial.Shell.Session

/-! What words stand for: parameters, the output of commands and the results of expressions in
their places, cut into fields and matched with the names of files. -/

namespace MergeTrial.Shell

namespace Execution

def joint (s : Session) : Option Char :=
  match s.valueOf? "IFS".toList with
  | some separators => separators.head?
  | none => some ' '

def apart : List Raw → List Mark
  | [] => []
  | [text] => .present :: Mark.ofText true false text
  | text :: rest => .present :: Mark.ofText true false text ++ .boundary :: apart rest

def loose : List Raw → List Mark
  | [] => []
  | [text] => Mark.ofText false true text
  | text :: rest => Mark.ofText false true text ++ .gap :: loose rest

def staysApart (each split quoted : Bool) : Bool := split && (each || !quoted)

def separated (quoted : Bool) (texts : List Raw) : List Mark :=
  if quoted then apart texts else loose texts

def allParams (s : Session) (each split quoted : Bool) : List Mark :=
  if staysApart each split quoted then separated quoted s.params
  else Mark.ofText quoted (!quoted) (Raw.join (joint s).toList s.params)

def isAll (name : Raw) : Bool := name == ['@'] || name == ['*']

def valueMarks (s : Session) (name : Raw) (split quoted : Bool) : Option (List Mark) :=
  if isAll name then some (allParams s (name == ['@']) split quoted)
  else (s.lookup name).map (Mark.ofText quoted (!quoted))

def valueText (s : Session) (name : Raw) : Option Raw :=
  if isAll name then some (Raw.join (joint s).toList s.params) else s.lookup name

def isBlank (s : Session) (name : Raw) : Bool :=
  ((valueText s name).getD []).isEmpty && !(name == ['@'] && 1 < s.params.length)

def notSet (name : Raw) (orEmpty : Bool) : Execution (List Mark) :=
  failWith (name ++ ": parameter not set".toList ++ (if orEmpty then " or null".toList else []))

def unset (s : Session) (name : Raw) : Execution (List Mark) :=
  if s.hasOption 'u' && !isAll name then notSet name false else return []

def textOf (inner : Evaluator) (word : Word) : Execution Raw := do
  return Mark.text (← inner.expand false false word)

def fallbackMarks (inner : Evaluator) (name : Raw) (kind : Fallback) (ifEmpty : Bool)
    (word : Word) (split quoted : Bool) : Execution (List Mark) := do
  let s ← session
  let found := (valueMarks s name split quoted).filter fun _ =>
    !ifEmpty || !isBlank s name
  match kind, found with
  | .alternative, some _ => inner.expand split (!quoted) word
  | .alternative, none => return []
  | _, some marks => return marks
  | .other, none => inner.expand split (!quoted) word
  | .assigned, none =>
    if !Name.isName name then failWith (name ++ ": bad variable name".toList)
    else
      let value ← textOf inner word
      assign name value
      return Mark.ofText quoted (!quoted) value
  | .error, none =>
    if word.isEmpty then notSet name ifEmpty
    else failWith (name ++ ": ".toList ++ (← textOf inner word))

def parameterMarks (inner : Evaluator) (name : Raw) (use : Use) (split quoted : Bool) :
    Execution (List Mark) := do
  let s ← session
  let whole (text : Raw) : List Mark := Mark.ofText quoted (!quoted) text
  match use with
  | .plain =>
    match valueMarks s name split quoted with
    | some marks => return marks
    | none => unset s name
  | .length =>
    match valueText s name with
    | some text => return whole (Raw.ofNat text.length)
    | none =>
      let _ ← unset s name
      return whole ['0']
  | .malformed => failWith "Bad substitution".toList
  | .fallback kind ifEmpty word => fallbackMarks inner name kind ifEmpty word split quoted
  | .trim kind pattern =>
    match valueText s name with
    | some text =>
      let pattern := Pattern.ofSigns (Mark.signs (← inner.expand false false pattern))
      if isAll name && staysApart (name == ['@']) split quoted then
        let left := kind.apply pattern (Raw.join ['\x00'] s.params)
        return separated quoted (Raw.splitOn '\x00' left)
      else return whole (kind.apply pattern text)
    | none => unset s name

def evaluate (text : Raw) : Execution Int := do
  let s ← session
  let fault (message : String) : Execution Int :=
    failWith (Raw.ofString ("arithmetic expression: " ++ message ++ ": \"") ++ text ++ ['"'])
  match (Arithmetic.evaluate s.lookup (Arithmetic.read text)).run [] with
  | .error (.illegal value) => illegalNumber value
  | .error (.fault message) => fault message
  | .ok (n, assignments) =>
    assignments.reverse.forM fun entry => assign entry.1 entry.2
    return n

def withoutEnd (text : Raw) : Raw := (text.reverse.dropWhile (· == '\n')).reverse

/-- What a piece stands for. `output` runs commands for the text that they print. Characters that
are not quoted separate fields if they come from a value, or if `literals` says so. -/
def pieceMarks (inner : Evaluator) (output : Command → Execution Raw) (split literals : Bool) :
    Piece → Execution (List Mark)
  | .char c quoted => return [.char c quoted (literals && !quoted)]
  | .mark => return [.present]
  | .value name use quoted => parameterMarks inner name use split quoted
  | .output commands quoted => do
    let text := withoutEnd ((← output commands).filter (· != '\x00'))
    return Mark.ofText quoted (!quoted) text
  | .result expression quoted => do
    let n ← evaluate (← textOf inner expression)
    return Mark.ofText quoted (!quoted) (Raw.ofInt n)

/-- The pieces whose marks count: quotes around all positional parameters are none if there are
no such parameters. -/
def significant : Word → Word
  | [] => []
  | .mark :: .value ['@'] .plain true :: .mark :: rest =>
    .value ['@'] .plain true :: significant rest
  | piece :: rest => piece :: significant rest

def homes : List (String × String) :=
  [("root", "/root"), ("daemon", "/usr/sbin"), ("bin", "/bin"), ("sys", "/dev"), ("sync", "/bin"),
    ("games", "/usr/games"), ("man", "/var/cache/man"), ("lp", "/var/spool/lpd"),
    ("mail", "/var/mail"), ("news", "/var/spool/news"), ("www-data", "/var/www"),
    ("backup", "/var/backups"), ("list", "/var/list"), ("nobody", "/nonexistent")]

def homeOf? (s : Session) (user : Raw) : Option Raw :=
  if user.isEmpty then s.valueOf? "HOME".toList
  else (homes.lookup (String.ofList user)).map String.toList

def userAfter? (colons : Bool) : Word → Option Raw
  | [] => some []
  | .char c false :: rest =>
    if c = '/' ∨ (colons ∧ c = ':') then some []
    else (userAfter? colons rest).map (c :: ·)
  | _ => none

/-- Puts home directories in the places of tildes: at the start of a word and, if `colons` says so,
after each colon. The first argument counts pieces that are dealt with, and the second one tells
whether a tilde counts here. -/
def homesIn (s : Session) (colons : Bool) : Nat → Bool → Word → Word
  | _, _, [] => []
  | dealt + 1, counts, _ :: rest => homesIn s colons dealt counts rest
  | 0, counts, piece :: rest =>
    match piece with
    | .char '~' false =>
      let found := if counts then (userAfter? colons rest).bind fun user =>
          (homeOf? s user).map fun home => (user, home)
        else none
      match found with
      | some (user, home) => home.map (.char · true) ++ homesIn s colons user.length false rest
      | none => piece :: homesIn s colons 0 false rest
    | .char ':' false => piece :: homesIn s colons 0 colons rest
    | _ => piece :: homesIn s colons 0 false rest

def assignedText (inner : Evaluator) (word : Word) : Execution Raw := do
  textOf inner (homesIn (← session) true 0 true word)

def marksOf (inner : Evaluator) (output : Command → Execution Raw) (split literals : Bool)
    (word : Word) : Execution (List Mark) := do
  let word := homesIn (← session) false 0 true word
  let parts ← (if split then significant word else word).mapM
    (pieceMarks inner output split literals)
  return parts.flatten

/-! Names of files that a field matches -/

def components : List Sign → List (List Sign)
  | [] => [[]]
  | (c, quoted) :: rest =>
    match c, components rest with
    | '/', parts => [] :: parts
    | _, first :: more => ((c, quoted) :: first) :: more
    | _, [] => [[(c, quoted)]]

def matching (m : Machine) (dir : Raw) (part : List Sign) : List Raw :=
  let pattern := Pattern.ofSigns part
  let path := Raw.toBytes (if dir.isEmpty then ['.'] else dir)
  match m.node? path with
  | some (.dir mode entries) =>
    if !Right.read.isIn mode then []
    else
      let names := [['.'], ['.', '.']] ++ entries.map fun entry => Raw.ofBytes entry.1
      names.filter fun name =>
        (name.head? != some '.' || pattern.head? == some (.char '.')) && pattern.accepts name
  | _ => []

def pathsFrom (m : Machine) : Raw → List (List Sign) → List Raw
  | _, [] => []
  | dir, [part] =>
    if Pattern.isOpen part then (matching m dir part).map (dir ++ ·)
    else
      let path := dir ++ part.map Prod.fst
      if (m.resolveEntry (Raw.toBytes path)).toOption.any (·.node.isSome) then [path] else []
  | dir, part :: rest =>
    if Pattern.isOpen part then
      (matching m dir part).flatMap fun name => pathsFrom m (dir ++ name ++ ['/']) rest
    else pathsFrom m (dir ++ part.map Prod.fst ++ ['/']) rest

def matched (s : Session) (m : Machine) (field : List Mark) : List Raw :=
  let signs := Mark.signs field
  if s.hasOption 'f' || !Pattern.isOpen signs then [signs.map Prod.fst]
  else match pathsFrom m [] (components signs) with
    | [] => [signs.map Prod.fst]
    | paths => paths.mergeSort Raw.le

def fieldsOf (inner : Evaluator) (word : Word) : Execution (List Raw) := do
  let marks ← inner.expand true false word
  let s ← session
  let m ← machine
  return (Mark.split s.separators marks).flatMap (matched s m)

def patternOf (inner : Evaluator) (word : Word) : Execution Pattern := do
  return Pattern.ofSigns (Mark.signs (← inner.expand false false word))

end Execution
end MergeTrial.Shell
