import MergeTrial.Shell.Condition
import MergeTrial.Shell.Print
import MergeTrial.Shell.Session
import MergeTrial.Shell.Signal

/-! Commands that the shell carries out itself and that carry out no others. -/

namespace MergeTrial.Shell

namespace Builtin
open Execution

def special : List String :=
  [".", ":", "break", "continue", "eval", "exec", "exit", "export", "local", "readonly", "return",
    "set", "shift", "times", "trap", "unset"]

def names : List String :=
  special ++ ["[", "alias", "bg", "cd", "chdir", "command", "echo", "false", "fg", "getopts", "hash",
    "jobs", "kill", "printf", "pwd", "read", "test", "true", "type", "ulimit", "umask",
    "unalias", "wait"]

def isSpecial (name : Raw) : Bool := special.contains (String.ofList name)

def isBuiltin (name : Raw) : Bool := names.contains (String.ofList name)

def assigns (name : Raw) : Bool :=
  ["export", "readonly", "local"].contains (String.ofList name)

def say (text : Raw) : Execution Nat := do
  match ← write 1 text with
  | .ok () => return 0
  | .error _ =>
    let name := ((← session).command).getD []
    complain (name ++ ": I/O error".toList)
    return 1

def sayLine (text : Raw) : Execution Nat := say (text ++ ['\n'])

def optionsFrom (allowed : Raw) : Nat → List Raw → Execution (List (Char × Raw) × List Raw)
  | 0, args => return ([], args)
  | n + 1, args => do
    match args with
    | ['-', '-'] :: rest => return ([], rest)
    | ('-' :: c :: more) :: rest =>
      match allowed.dropWhile (· != c) with
      | [] => failWith ("Illegal option -".toList ++ [c])
      | _ :: ':' :: _ =>
        match more, rest with
        | [], value :: rest =>
          let (options, rest) ← optionsFrom allowed n rest
          return ((c, value) :: options, rest)
        | [], [] => failWith ("No arg for -".toList ++ [c] ++ " option".toList)
        | value, rest =>
          let (options, rest) ← optionsFrom allowed n rest
          return ((c, value) :: options, rest)
      | _ =>
        let args := if more.isEmpty then rest else ('-' :: more) :: rest
        let (options, rest) ← optionsFrom allowed n args
        return ((c, []) :: options, rest)
    | _ => return ([], args)

def options (allowed : String) (args : List Raw) : Execution (List (Char × Raw) × List Raw) :=
  optionsFrom allowed.toList (args.foldl (fun n arg => n + arg.length + 1) 1) args

def echo (args : List Raw) : Execution Nat :=
  let (ended, args) : Bool × List Raw := match args with
    | ['-', 'n'] :: rest => (false, rest)
    | _ => (true, args)
  let (text, isOver) := Escape.expand (Raw.join [' '] args)
  say (text ++ if ended && !isOver then ['\n'] else [])

def problemText : Print.Problem → Raw
  | .notNumber arg => arg ++ ": expected numeric value".toList
  | .incomplete arg => arg ++ ": not completely converted".toList
  | .outOfRange arg => arg ++ ": Numerical result out of range".toList
  | .noConversion _ => "missing format character".toList
  | .badConversion directive => directive ++ ": invalid directive".toList

def printf (args : List Raw) : Execution Nat := do
  let (_, args) ← options "" args
  match args with
  | [] => failWith "usage: printf format [arg ...]".toList
  | format :: args =>
    let p := Print.format format args
    p.problems.forM fun problem => complain (problemText problem)
    let status ← say p.out
    let isFatal := p.problems.any fun
      | .noConversion _ | .badConversion _ => true
      | _ => false
    return if isFatal then 2 else if p.problems.isEmpty then status else 1

def testMessage : Condition.Problem → Raw
  | .illegalNumber text => "Illegal number: ".toList ++ text
  | .outOfRange text => "Illegal number: ".toList ++ text
  | .noArgument operator => operator ++ ": argument expected".toList
  | .notClosed => "closing paren expected".toList
  | .unexpected word => word ++ ": unexpected operator".toList

def test (name : Raw) (args : List Raw) : Execution Nat := do
  if name = ['['] ∧ args.getLast? ≠ some [']'] then failWith "missing ]".toList
  else
    let facts : Condition.Facts := ⟨← machine, (← session).table⟩
    match Condition.judge facts (if name = ['['] then args.dropLast else args) with
    | .ok result => return if result then 0 else 1
    | .error problem => failWith (testMessage problem)

def directory : Execution Raw := do
  let m ← machine
  return Raw.ofBytes m.cwdPath

def cd (args : List Raw) : Execution Nat := do
  let (_, args) ← options "LP" args
  let s ← session
  let home := (s.valueOf? "HOME".toList).getD []
  let back := args.head? = some ['-']
  let target := if back then (s.valueOf? "OLDPWD".toList).getD [] else args.headD home
  let m ← machine
  let target := if target.isEmpty then ['.'] else target
  match m.enter (some (Raw.toBytes target)) with
  | .error _ => failWith ("can't cd to ".toList ++ target)
  | .ok moved =>
    let old ← directory
    modify fun r => { r with world := { r.world with machine := moved } }
    assign "OLDPWD".toList old
    let here ← directory
    assign "PWD".toList here
    if back then sayLine here else return 0

def pwd (args : List Raw) : Execution Nat := do
  let _ ← options "LP" args
  sayLine (← directory)

def quoted (text : Raw) : Raw :=
  let parts := Raw.splitOn '\'' text
  Raw.join "\"'\"".toList (parts.map fun part => '\'' :: part ++ ['\''])

def sorted (bindings : List (Raw × Variable)) : List (Raw × Variable) :=
  bindings.mergeSort fun a b => Raw.le a.1 b.1

def variableLine (lead : String) (entry : Raw × Variable) : Raw :=
  let start := if lead.isEmpty then [] else lead.toList ++ [' ']
  start ++ entry.1 ++ (match entry.2.value with
    | some value => '=' :: quoted value
    | none => []) ++ ['\n']

def binding (arg : Raw) : Raw × Option Raw :=
  match arg.dropWhile (· != '=') with
  | '=' :: value => (arg.takeWhile (· != '='), some value)
  | _ => (arg, none)

def mark (lead : String) (isMarked : Variable → Bool) (change : Variable → Variable)
    (args : List Raw) : Execution Nat := do
  let (found, args) ← options "p" args
  if args.isEmpty ∨ !found.isEmpty then
    let marked := sorted ((← session).bindings.filter fun entry => isMarked entry.2)
    say (marked.flatMap (variableLine lead))
  else
    args.forM fun arg => do
      let (name, value) := binding arg
      if !Name.isName name then failWith (name ++ ": bad variable name".toList)
      else
        value.forM (assign name)
        modifySession fun s =>
          let old := (s.bindings.lookup name).getD ⟨none, false, false⟩
          s.put name (some (change old))
    return 0

def localVariables (args : List Raw) : Execution Nat := do
  match (← session).scopes with
  | [] => failWith "not in a function".toList
  | _ =>
    args.forM fun arg => do
      let (name, value) := binding arg
      if !Name.isName name ∧ arg ≠ ['-'] then failWith (name ++ ": bad variable name".toList)
      else
        modifySession fun s =>
          match s.scopes with
          | scope :: outer =>
            if scope.any (·.1 == name) then s
            else { s with scopes := ((name, s.bindings.lookup name) :: scope) :: outer }
          | [] => s
        value.forM (assign name)
    return 0

def unset (args : List Raw) : Execution Nat := do
  let (found, args) ← options "vf" args
  args.forM fun name => do
    if found.any (·.1 == 'f') then
      modifySession fun s => { s with functions := s.functions.filter (·.1 != name) }
    else if !Name.isName name then failWith (name ++ ": bad variable name".toList)
    else if ((← session).bindings.lookup name).any (·.readOnly) then
      failWith (name ++ ": is read only".toList)
    else modifySession fun s => s.put name none
  return 0

def optionNames : List (String × Char) :=
  [("errexit", 'e'), ("noglob", 'f'), ("ignoreeof", 'I'), ("interactive", 'i'), ("monitor", 'm'),
    ("noexec", 'n'), ("stdin", 's'), ("xtrace", 'x'), ("verbose", 'v'), ("vi", 'V'), ("emacs", 'E'),
    ("noclobber", 'C'), ("allexport", 'a'), ("notify", 'b'), ("nounset", 'u'),
    ("privileged", 'p'), ("nolog", '\x01'), ("debug", '\x02')]

def setOption (c : Char) (on : Bool) : Execution Unit := modifySession fun s =>
  let others := s.options.filter (· != c)
  let known := optionNames.map Prod.snd
  { s with options := known.filter fun d => others.contains d || (on && d == c) }

def sayOptions (readable : Bool) : Execution Unit := do
  let s ← session
  let line (entry : String × Char) : Raw :=
    let isOn := s.options.contains entry.2
    if readable then
      Raw.padEnd 16 entry.1.toList ++ (if isOn then "on" else "off").toList ++ ['\n']
    else "set ".toList ++ (if isOn then "-o " else "+o ").toList ++ entry.1.toList ++ ['\n']
  let _ ← say ((if readable then "Current option settings\n".toList else [])
    ++ optionNames.flatMap line)

def namedOption (on : Bool) : List Raw → Execution (List Raw)
  | [] => do
    sayOptions on
    return []
  | name :: rest => do
    match optionNames.lookup (String.ofList name) with
    | some c =>
      setOption c on
      return rest
    | none => failWith ("Illegal option -o ".toList ++ name)

def optionLetters (atStart on : Bool) : Raw → List Raw → Execution (Bool × List Raw)
  | [], rest => return (false, rest)
  | c :: more, rest => do
    if atStart && c == 'c' then
      let (_, rest) ← optionLetters atStart on more rest
      return (true, rest)
    else if atStart && c == 'l' then optionLetters atStart on more rest
    else if c == 'o' then optionLetters atStart on more (← namedOption on rest)
    else if optionNames.any (·.2 == c) then
      setOption c on
      optionLetters atStart on more rest
    else failWith ("Illegal option -".toList ++ [c])

structure OptionsRead where
  hasScript : Bool
  rest : List Raw
  marked : Bool

def readOptions (atStart : Bool) : Nat → Bool → List Raw → Execution OptionsRead
  | 0, hasScript, args => return ⟨hasScript, args, false⟩
  | n + 1, hasScript, args => do
    match args with
    | ['-', '-'] :: rest => return ⟨hasScript, rest, true⟩
    | ['-'] :: rest =>
      if !atStart then
        setOption 'x' false
        setOption 'v' false
      return ⟨hasScript, rest, false⟩
    | ('-' :: letters) :: rest =>
      let (found, rest) ← optionLetters atStart true letters rest
      readOptions atStart n (hasScript || found) rest
    | ('+' :: letters) :: rest =>
      let (found, rest) ← optionLetters atStart false letters rest
      readOptions atStart n (hasScript || found) rest
    | _ => return ⟨hasScript, args, false⟩

def setParams (args : List Raw) : Execution Nat := do
  if args.isEmpty then say ((sorted (← session).bindings).flatMap (variableLine ""))
  else
    let read ← readOptions false (args.length + 1) false args
    if read.marked || !read.rest.isEmpty then
      modifySession fun s => { s with params := read.rest, optionOffset := 0 }
    return 0

def shift (args : List Raw) : Execution Nat := do
  let n ← match args with
    | [] => pure 1
    | arg :: _ => number arg
  if (← session).params.length < n then failWith "can't shift that many".toList
  else
    modifySession fun s => { s with params := s.params.drop n, optionOffset := 0 }
    return 0

def leave (again : Bool) (args : List Raw) : Execution Nat := do
  let n ← match args with
    | [] => pure 1
    | arg :: _ => do
      let n ← number arg
      if n = 0 then illegalNumber arg else pure n
  let loops := (← session).loops
  if loops = 0 then return 0 else throw (.leave (min n loops) again)

def statusArgument (args : List Raw) : Execution Nat := do
  match args with
  | [] => return (← session).status
  | arg :: _ => number arg

def exitWith (args : List Raw) : Execution Nat := do throw (.exit ((← statusArgument args) % 256))

def goBack (args : List Raw) : Execution Nat := do throw (.return (← statusArgument args))

/-- Reads a line off what can be read: its marks, how long it is, and whether it is ended. After a
backslash a line feed is passed over and any other character stands for itself. -/
def readLine (verbatim : Bool) : Raw → List Mark × Nat × Bool
  | [] => ([], 0, false)
  | c :: rest =>
    let more (marks : List Mark) (length : Nat) (result : List Mark × Nat × Bool) :
        List Mark × Nat × Bool := (marks ++ result.1, length + result.2.1, result.2.2)
    if c = '\n' then ([], 1, true)
    else if c = '\\' ∧ !verbatim then
      match rest with
      | '\n' :: rest => more [] 2 (readLine verbatim rest)
      | d :: rest => more [.char d true false] 2 (readLine verbatim rest)
      | [] => ([], 1, false)
    else if c = '\x00' then more [] 1 (readLine verbatim rest)
    else more [.char c false true] 1 (readLine verbatim rest)

def readFields (args : List Raw) : Execution Nat := do
  let (found, names) ← options "p:r" args
  let s ← session
  if names.isEmpty then failWith "arg count".toList
  else
    let text ← match s.table.lookup 0 with
      | some stream => world (World.pending stream)
      | none => pure (.error .badDescriptor)
    let text := match text with
      | .ok text => text
      | .error _ => []
    let (marks, length, ended) := readLine (found.any (·.1 == 'r')) text
    (s.table.lookup 0).forM fun stream => do
      world (World.advance stream length)
      if !ended then world (World.awaitEnd stream)
    let values := Mark.splitInto s.separators names.length marks
    (names.zip (values ++ List.replicate names.length [])).forM fun entry =>
      if Name.isName entry.1 then assign entry.1 entry.2
      else failWith (entry.1 ++ ": bad variable name".toList)
    return if ended then 0 else 1

structure FoundOption where
  letter : Raw
  value : Option Raw
  index : Nat
  offset : Nat
  message : Option Raw
  isOver : Bool

def nextOption (allowed : Raw) (args : List Raw) (index offset : Nat) : FoundOption :=
  let silent := allowed.head? == some ':'
  let exhausted (index : Nat) : FoundOption := ⟨['?'], none, index, 0, none, true⟩
  let current := if index ≤ 1 then [] else (args[index - 2]?.getD [])
  let inWord := offset != 0 && index > 1 && offset < current.length
  let found : Except Nat (Raw × Nat) :=
    if inWord then .ok (current.drop offset, index)
    else match args[index - 1]? with
      | some ['-', '-'] => .error (index + 1)
      | some ('-' :: c :: more) => .ok (c :: more, index + 1)
      | _ => .error index
  match found with
  | .error index => exhausted index
  | .ok ([], index) => exhausted index
  | .ok (c :: rest, index) =>
    let word := args[index - 2]?.getD []
    let offset := if rest.isEmpty then 0 else word.length - rest.length
    match (if c = ':' then [] else allowed.dropWhile (· != c)) with
    | [] =>
      if silent then ⟨['?'], some [c], index, offset, none, false⟩
      else ⟨['?'], none, index, offset, some ("Illegal option -".toList ++ [c, '\n']), false⟩
    | _ :: ':' :: _ =>
      if !rest.isEmpty then ⟨[c], some rest, index, 0, none, false⟩
      else match args[index - 1]? with
        | some value => ⟨[c], some value, index + 1, 0, none, false⟩
        | none =>
          if silent then ⟨[':'], some [c], index, 0, none, false⟩
          else ⟨['?'], none, index, 0,
            some ("No arg for -".toList ++ [c] ++ " option\n".toList), false⟩
    | _ => ⟨[c], some [], index, offset, none, false⟩

def getopts (args : List Raw) : Execution Nat := do
  match args with
  | allowed :: name :: rest =>
    let s ← session
    let index := (((s.valueOf? "OPTIND".toList).bind Raw.nat?).getD 1).max 1
    let found := nextOption allowed (if rest.isEmpty then s.params else rest) index
      (if index = 1 then 0 else s.optionOffset)
    found.message.forM fun text => do
      let _ ← write 2 text
    if !found.isOver then
      match found.value with
      | some value => assign "OPTARG".toList value
      | none => modifySession fun s => s.put "OPTARG".toList none
    assign "OPTIND".toList (Raw.ofNat found.index)
    assign name found.letter
    modifySession fun s => { s with optionOffset := found.offset }
    return if found.isOver then 1 else 0
  | _ => failWith "Usage: getopts optstring var [arg]".toList

def octal (n : Nat) : Raw :=
  let digits := Nat.toDigits 8 n
  List.replicate (4 - digits.length) '0' ++ digits

def maskLetters (mask shift : Nat) : Raw :=
  let bits := (mask >>> shift) % 8
  (if bits &&& 4 = 0 then ['r'] else []) ++ (if bits &&& 2 = 0 then ['w'] else [])
    ++ (if bits &&& 1 = 0 then ['x'] else [])

def umask (change : Raw → Nat → Option Nat) (args : List Raw) : Execution Nat := do
  let (found, args) ← options "S" args
  let mask := (← machine).mask
  match args with
  | [] =>
    if found.isEmpty then sayLine (octal mask)
    else
      sayLine ("u=".toList ++ maskLetters mask 6 ++ ",g=".toList ++ maskLetters mask 3
        ++ ",o=".toList ++ maskLetters mask 0)
  | arg :: _ =>
    let new? : Option Nat :=
      if (arg.headD ' ').isDigit then (Raw.octal? arg).filter (· < 512)
      else (change arg (0o777 ^^^ mask)).map fun mode => 0o777 ^^^ mode
    match new? with
    | none =>
      if (arg.headD ' ').isDigit then illegalNumber arg
      else failWith ("Illegal mode: ".toList ++ arg)
    | some new =>
      modify fun r =>
        { r with world := { r.world with machine := { r.world.machine with mask := new } } }
      return 0

def waitUntil (time : Nat) : Execution Unit := do
  let deadline ← world do return (← get).deadline
  if deadline < time then
    world (World.wait (deadline + 1))
    throw (.ended .overtime)
  else world (World.wait time)

def wait (args : List Raw) : Execution Nat := do
  let s ← session
  if args.isEmpty then
    waitUntil (s.jobs.foldl (fun time job => max time job.endsAt) 0)
    modifySession fun s => { s with jobs := [] }
    return 0
  else
    args.foldlM (fun _ arg => do
      let n ← match arg with
        | '%' :: _ => pure ((s.jobs.head?.map Job.process).getD 0)
        | _ => number arg
      match s.jobs.find? (·.process == n) with
      | none => return 127
      | some job =>
        waitUntil job.endsAt
        match job.finish with
        | .signal n =>
          (Signal.description? n).forM fun text => do
            let _ ← write 2 (text.toList ++ ['\n'])
        | _ => pure ()
        return job.finish.status) 0

def stopJob (jobs : List Job) (process signal now : Nat) : List Job :=
  jobs.map fun job =>
    if job.process = process ∧ now < job.endsAt then
      { job with endsAt := now, finish := .signal signal }
    else job

def send (signal : Nat) (target : Raw) : Execution Nat := do
  let s ← session
  let now ← world do return (← get).clock
  let noProcess : Execution Nat := do
    complain "No such process\n".toList
    return 1
  let process ← match target with
    | '%' :: _ => pure ((s.jobs.head?.map Job.process).getD 0)
    | '-' :: _ => pure 0
    | _ => number target
  if process = s.process then
    if signal ≠ 0 then
      world (modify fun w => { w with signals := w.signals ++ [(process, signal)] })
    return 0
  else if s.jobs.any fun job => job.process == process && decide (now < job.endsAt) then
    if signal ≠ 0 ∧ !Signal.isHarmless signal ∧ !Signal.stops signal then
      modifySession fun s => { s with jobs := stopJob s.jobs process signal now }
      world (World.stopGroup process)
    return 0
  else if s.jobs.any fun job => job.process == process then return 0
  else noProcess

def killUsage : String :=
  "Usage: kill [-s sigspec | -signum | -sigspec] [pid | job]... or\nkill -l [exitstatus]"

def signalOption? : Raw → Option Nat
  | '-' :: name => if name.isEmpty then none else Signal.ofText? name
  | _ => none

def kill (args : List Raw) : Execution Nat := do
  let sendAll (signal : Nat) (targets : List Raw) : Execution Nat := do
    if targets.isEmpty then failWith killUsage.toList
    else targets.foldlM (fun status target => do return status ||| (← send signal target)) 0
  match args with
  | ['-', 'l'] :: rest =>
    match rest with
    | [] => say ((Signal.names.drop 1).flatMap fun name => name.toList ++ ['\n'])
    | arg :: _ =>
      let n ← number arg
      sayLine (Signal.nameOf (if 128 < n then n - 128 else n))
  | ['-', 's'] :: name :: targets =>
    match Signal.ofText? name with
    | some signal => sendAll signal (if targets.head? = some ['-', '-'] then targets.tail else targets)
    | none => failWith ("invalid signal number or name: ".toList ++ name)
  | ['-', '-'] :: targets => sendAll Signal.terminate targets
  | arg :: targets =>
    match signalOption? arg with
    | some signal =>
      sendAll signal (if targets.head? = some ['-', '-'] then targets.tail else targets)
    | none =>
      match arg with
      | '-' :: c :: _ => failWith ("Illegal option -".toList ++ [c])
      | _ => sendAll Signal.terminate args
  | [] => failWith killUsage.toList

def trapLine (entry : Nat × Raw) : Raw :=
  "trap -- ".toList ++ quoted entry.2 ++ [' '] ++ Signal.nameOf entry.1 ++ ['\n']

def trap (args : List Raw) : Execution Nat := do
  let (_, args) ← options "" args
  match args with
  | [] =>
    let traps := (← session).traps.mergeSort fun a b => decide (a.1 ≤ b.1)
    say (traps.flatMap trapLine)
  | first :: rest =>
    let (action, names) := if rest.isEmpty then (['-'], [first]) else (first, rest)
    names.foldlM (fun status name => do
      match Signal.ofText? name with
      | some signal =>
        modifySession fun s =>
          let others := s.traps.filter (·.1 != signal)
          { s with traps := if action = ['-'] then others else (signal, action) :: others }
        return status
      | none =>
        let _ ← write 2 ("trap: ".toList ++ name ++ ": bad trap\n".toList)
        return 1) 0

def filesNamed (m : Machine) (search : Option Raw) (name : Raw) : List Path :=
  ((Work.searchDirs search).map fun dir => dir.join (Raw.toBytes name)).filter fun path =>
    (m.node? path).any (·.isFile)

def remember (name : Raw) (path : Path) : Execution Unit := modifySession fun s =>
  if (s.found.lookup name).isSome then s else { s with found := s.found ++ [(name, path)] }

/-- What a name stands for where commands are named. -/
inductive Meaning where
  | keyword
  | replaced (text : Raw)
  | function
  | builtin
  | found (path : Path)
  | file (path : Path)
  | unknown

def meaning (name : Raw) : Execution Meaning := do
  let s ← session
  let m ← machine
  if ["!", "case", "do", "done", "elif", "else", "esac", "fi", "for", "if", "in", "then", "until",
      "while", "\x7b", "\x7d"].contains (String.ofList name) then return .keyword
  else if let some text := s.aliases.lookup name then return .replaced text
  else if (s.functions.lookup name).isSome then return .function
  else if isBuiltin name then return .builtin
  else if name.contains '/' then
    return if (m.node? (Raw.toBytes name)).isSome then .file (Raw.toBytes name) else .unknown
  else
    match s.found.lookup name, filesNamed m (s.valueOf? "PATH".toList) name with
    | some path, _ => return .found path
    | none, path :: _ =>
      remember name path
      return .file path
    | none, [] => return .unknown

def aliasText (entry : Raw × Raw) : Raw := entry.1 ++ '=' :: quoted entry.2

def makeAliases (args : List Raw) : Execution Nat := do
  if args.isEmpty then
    say ((Session.kept 39 (← session).aliases).flatMap fun entry => aliasText entry ++ ['\n'])
  else
    args.foldlM (fun status arg => do
      let name := arg.takeWhile (· != '=')
      match arg.drop name.length with
      | _ :: text =>
        modifySession fun s => { s with
          aliases := if (s.aliases.lookup name).isSome then
              s.aliases.map fun entry => if entry.1 = name then (name, text) else entry
            else s.aliases ++ [(name, text)] }
        return status
      | [] =>
        match (← session).aliases.lookup name with
        | some text => return status ||| (← sayLine (aliasText (name, text)))
        | none =>
          let _ ← write 2 ("alias: ".toList ++ name ++ " not found\n".toList)
          return 1) 0

def dropAliases (args : List Raw) : Execution Nat := do
  let (found, args) ← options "a" args
  if !found.isEmpty then
    modifySession fun s => { s with aliases := [] }
    return 0
  else
    args.foldlM (fun status name => do
      if ((← session).aliases.lookup name).isSome then
        modifySession fun s => { s with aliases := s.aliases.filter (·.1 != name) }
        return status
      else
        let _ ← write 2 ("unalias: ".toList ++ name ++ " not found\n".toList)
        return 1) 0

def hash (args : List Raw) : Execution Nat := do
  let (found, args) ← options "rv" args
  if found.any (·.1 == 'r') then
    modifySession fun s => { s with found := [] }
    return 0
  else if args.isEmpty then
    say ((Session.kept 31 (← session).found).flatMap fun entry => Raw.ofBytes entry.2 ++ ['\n'])
  else
    args.foldlM (fun status name => do
      match ← meaning name with
      | .unknown =>
        complain (name ++ ": not found".toList)
        return 1
      | _ => return status) 0

def describe (verbose : Bool) (name : Raw) : Execution Nat := do
  let tell (text : String) : Execution Nat := sayLine (name ++ text.toList)
  match ← meaning name, verbose with
  | .keyword, true => tell " is a shell keyword"
  | .function, true => tell " is a shell function"
  | .builtin, true =>
    tell (if isSpecial name then " is a special shell builtin" else " is a shell builtin")
  | .file path, true => sayLine (name ++ " is ".toList ++ Raw.ofBytes path)
  | .found path, true => sayLine (name ++ " is a tracked alias for ".toList ++ Raw.ofBytes path)
  | .replaced text, true => sayLine (name ++ " is an alias for ".toList ++ text)
  | .unknown, true =>
    let _ ← sayLine (name ++ ": not found".toList)
    return 127
  | .file path, false | .found path, false => sayLine (Raw.ofBytes path)
  | .replaced text, false => sayLine ("alias ".toList ++ aliasText (name, text))
  | .unknown, false => return 127
  | _, false => sayLine name

def explain (args : List Raw) : Execution Nat :=
  args.foldlM (fun status name => do return status ||| (← describe true name)) 0

end Builtin
end MergeTrial.Shell
