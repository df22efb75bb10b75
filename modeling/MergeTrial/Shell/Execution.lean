import MergeTrial.Shell.Builtin
import MergeTrial.Shell.Expansion
import MergeTrial.Shell.Interpreter
import MergeTrial.Shell.Mode
import MergeTrial.Shell.Reader.Grammar

/-! Carrying out commands. What is inside a command is left to a parameter, so that one definition
by recursion on the depth ties all together: `Execution.evaluator`. -/

namespace MergeTrial.Shell

namespace Execution

/-! Processes of the shell's own -/

def finishOf : Except Stop Nat → Finish
  | .ok n | .error (.exit n) | .error (.failure n) | .error (.return n) => .code n
  | .error (.leave ..) => .code 0
  | .error (.ended finish) => finish

def conclude (inner : Evaluator) (action : Execution Nat) : StateM Running Finish := do
  let result ← action.run
  let isReplaced : Bool := match result with
    | .error (.ended _) => true
    | _ => false
  match finishOf result with
  | .code n =>
    let after ← get
    let tasks := if isReplaced then [] else after.session.traps
    match tasks.lookup 0 with
    | none => return .code n
    | some task =>
      modify fun r => { r with session := { r.session with
        status := n, traps := r.session.traps.filter (·.1 != 0) } }
      match ← (inner.text task).run with
      | .ok _ => return .code n
      | result => return finishOf result
  | finish => return finish

def copied (s : Session) : Session :=
  { s with
    isSubshell := true, jobs := [], loops := 0
    traps := s.traps.filter fun entry => entry.2.isEmpty && entry.1 != 0 }

def inCopy (inner : Evaluator) (table : Descriptors) (action : Execution Nat) :
    Execution Finish := fun before =>
  let session := { copied before.session with table := table }
  let (finish, after) := ((conclude inner action).run { before with session := session }).run
  let machine := before.world.machine
  let restored := { after.world.machine with cwd := machine.cwd, mask := machine.mask }
  (.ok finish,
    { session := { before.session with documentCount := after.session.documentCount }
      world := { after.world with machine := restored } })

def announce (finish : Finish) : Execution Unit := do
  match finish with
  | .signal n =>
    if n ≠ Signal.interrupt ∧ n ≠ Signal.brokenPipe then
      (Signal.description? n).forM fun text => do
        let _ ← write 2 (text.toList ++ ['\n'])
  | _ => return ()

def settle (finish : Finish) : Execution Nat := do
  match finish with
  | .overtime => throw (.ended .overtime)
  | finish =>
    announce finish
    return finish.status

/-! Redirections -/

def openFailure (opening : Opening) (fault : FileFault) : String :=
  match fault, opening with
  | .missing, .input | .notDirectory, .input => "No such file"
  | .missing, _ | .notDirectory, _ => "Directory nonexistent"
  | fault, _ => fault.reason

def connect (descriptor stream : Nat) : Execution Unit := modifySession fun s =>
  { s with table := (descriptor, stream) :: s.table.filter (·.1 != descriptor) }

def openFile (opening : Opening) (path : Raw) : Execution (Except FileFault Nat) := do
  let s ← session
  let m ← machine
  let target := Raw.toBytes path
  let taken := opening = .truncate ∧ s.hasOption 'C' ∧ (m.node? target).any (·.isFile)
  if taken then return .error .occupied
  else match opening with
    | .input => world (World.openInput s.table target)
    | .truncate | .clobber => world (World.openOutput s.table target true false false)
    | .append => world (World.openOutput s.table target false true false)
    | .both => world (World.openOutput s.table target false false true)

def redirect (inner : Evaluator) (r : Redirect) : Execution Bool := do
  match r with
  | .file descriptor opening target =>
    let path ← textOf inner target
    match ← openFile opening path with
    | .ok stream =>
      connect descriptor stream
      return true
    | .error fault =>
      let verb := if opening = .input then "cannot open " else "cannot create "
      complain (Raw.ofString verb ++ path ++ Raw.ofString (": " ++ openFailure opening fault))
      return false
  | .duplicate descriptor target =>
    match ← textOf inner target with
    | ['-'] =>
      modifySession fun s => { s with table := s.table.filter (·.1 != descriptor) }
      return true
    | [d] =>
      if !d.isDigit then failWith "Syntax error: Bad fd number".toList
      else
        match (← session).table.lookup (Raw.digitValue d) with
        | some stream =>
          connect descriptor stream
          return true
        | none =>
          complain ([d] ++ ": Bad file descriptor".toList)
          return false
    | _ => failWith "Syntax error: Bad fd number".toList
  | .document descriptor number =>
    let word := ((← session).documents.lookup number).getD []
    let text ← textOf inner word
    connect descriptor (← world (World.addText text))
    return true

def redirectAll (inner : Evaluator) : List Redirect → Execution Bool
  | [] => return true
  | r :: rest => do
    if ← redirect inner r then redirectAll inner rest else return false

def keepingTable {α : Type} (action : Execution α) : Execution α := fun before =>
  let (result, after) := (action.run before).run
  (result, { after with session := { after.session with table := before.session.table } })

/-! Programs -/

def refusal (fault : FileFault) : Nat × String :=
  match fault with
  | .missing | .notDirectory => (127, "not found")
  | .nameTooLong | .tooManyLinks => (127, fault.reason)
  | fault => (126, fault.reason)

def startFile (inner : Evaluator) (path : Path) (process : Process) :
    Execution (Except FileFault Finish) := do
  match ← world (inner.start path process) with
  | .error .badExecutable =>
    let isBinary : Bool := match (← machine).node? path with
      | some (.file content _) => Interpreter.isBinary content
      | _ => false
    if isBinary then return .error .badExecutable
    else
      let shell := "/bin/sh".toList
      world (inner.start (Raw.toBytes shell)
        { process with name := shell, args := Raw.ofBytes path :: process.args })
  | result => return result

def startFirst (inner : Evaluator) (process : Process) (fault : FileFault) :
    List Path → Execution (Except FileFault Finish)
  | [] => return .error fault
  | path :: rest => do
    match ← startFile inner path process with
    | .error next =>
      startFirst inner process
        (if next = .missing ∨ next = .notDirectory then fault else next) rest
    | result => return result

def startProgram (inner : Evaluator) (search : Option Raw) (name : Raw) (args : List Raw) :
    Execution (Except Nat Finish) := do
  let s ← session
  let m ← machine
  let process : Process := ⟨name, args, s.environment, s.table⟩
  let refuse (status : Nat) (reason : String) : Execution (Except Nat Finish) := do
    complain (name ++ Raw.ofString (": " ++ reason))
    return .error status
  let result ← if name.contains '/' then startFile inner (Raw.toBytes name) process
    else
      let paths := Builtin.filesNamed m search name
      if paths.isEmpty then
        let others := (Work.searchDirs search).map fun dir => dir.join (Raw.toBytes name)
        return ← refuse 127 (if others.any fun path => (m.node? path).isSome then
          FileFault.denied.reason else "not found")
      else
        if search = s.valueOf? "PATH".toList then paths.head?.forM (Builtin.remember name)
        startFirst inner process .missing paths
  match result with
  | .ok finish => return .ok finish
  | .error fault => refuse (refusal fault).1 (refusal fault).2

/-! Texts -/

def runCommands (inner : Evaluator) : Nat → Reading → Nat → Execution Nat
  | 0, _, status => return status
  | n + 1, reading, status => do
    let reading := { reading with
      count := (← session).documentCount, aliases := (← session).aliases }
    match reading.next? with
    | .error misreading =>
      modifySession fun s => { s with line := misreading.line }
      failWith (Raw.ofString ("Syntax error: " ++ misreading.message))
    | .ok (none, _) => return status
    | .ok (some command, rest) =>
      modifySession fun s =>
        { s with documents := rest.documents ++ s.documents, documentCount := rest.count }
      let isNothing : Bool := match command with
        | .nothing => true
        | _ => false
      let status ← if isNothing then pure status else inner.run false command
      runCommands inner n { rest with documents := [] } status

def runText (inner : Evaluator) (text : Raw) : Execution Nat :=
  runCommands inner (text.length + 2) (.start text 0) 0

/-! Builtins that carry out other commands -/

def sourced (inner : Evaluator) (name : Raw) (text : Raw) : Execution Nat := do
  let before := (← session).command
  modifySession fun s => { s with command := some name }
  let status ← inner.text text
  modifySession fun s => { s with command := before }
  return status

def sourcePath (name : Raw) : Execution (Option Raw) := do
  if name.contains '/' then return some name
  else
    let m ← machine
    let paths := Builtin.filesNamed m ((← session).valueOf? "PATH".toList) name
    return paths.head?.map Raw.ofBytes

def dot (inner : Evaluator) (args : List Raw) : Execution Nat := do
  match args with
  | [] => return 0
  | name :: _ =>
    match ← sourcePath name with
    | none => failWith (name ++ ": not found".toList)
    | some path =>
      match ← openFile .input path with
      | .error fault =>
        failWith ("cannot open ".toList ++ path ++ Raw.ofString (": " ++ openFailure .input fault))
      | .ok stream =>
        match ← world (World.readStream stream) with
        | .error _ => return 0
        | .ok text => fun before =>
          let text := text.filter (· != '\x00')
          let (result, after) := ((sourced inner path text).run before).run
          match result with
          | .error (.return n) =>
            (.ok n, { after with session := { after.session with
              command := before.session.command } })
          | result => (result, after)

def commandOptions (args : List Raw) : Execution (Option Bool × Bool × List Raw) := do
  let (found, args) ← Builtin.options "pvV" args
  let asks := if found.any (·.1 == 'V') then some true
    else if found.any (·.1 == 'v') then some false else none
  return (asks, found.any (·.1 == 'p'), args)

def builtin (inner : Evaluator) (name : Raw) (args : List Raw) : Execution Nat := do
  match String.ofList name with
  | ":" | "true" | "jobs" | "bg" => return 0
  | "false" => return 1
  | "." => dot inner args
  | "break" => Builtin.leave false args
  | "continue" => Builtin.leave true args
  | "eval" => if args.isEmpty then return 0 else inner.text (Raw.join [' '] args)
  | "exit" => Builtin.exitWith args
  | "return" => Builtin.goBack args
  | "export" =>
    Builtin.mark "export" (·.exported) (fun v => { v with exported := true }) args
  | "readonly" =>
    Builtin.mark "readonly" (·.readOnly) (fun v => { v with readOnly := true }) args
  | "set" => Builtin.setParams args
  | "shift" => Builtin.shift args
  | "times" => Builtin.say "0m0.000000s 0m0.000000s\n0m0.000000s 0m0.000000s\n".toList
  | "trap" => Builtin.trap args
  | "unset" => Builtin.unset args
  | "[" | "test" => Builtin.test name args
  | "alias" => Builtin.makeAliases args
  | "unalias" => Builtin.dropAliases args
  | "hash" => Builtin.hash args
  | "cd" | "chdir" => Builtin.cd args
  | "echo" => Builtin.echo args
  | "getopts" => Builtin.getopts args
  | "kill" => Builtin.kill args
  | "local" => Builtin.localVariables args
  | "printf" => Builtin.printf args
  | "pwd" => Builtin.pwd args
  | "read" => Builtin.readFields args
  | "type" => Builtin.explain args
  | "ulimit" => Builtin.sayLine "unlimited".toList
  | "umask" => Builtin.umask (fun change mode => Mode.change? change 0 false mode) args
  | "wait" => Builtin.wait args
  | "fg" => failWith "No current job".toList
  | _ => return 0

/-! Simple commands -/

def trace (texts : List Raw) (descriptor : Nat) : Execution Unit := do
  let s ← session
  if s.hasOption 'x' ∧ !texts.isEmpty then
    let lead := (s.valueOf? "PS4".toList).getD ['+', ' ']
    let _ ← match s.table.lookup descriptor with
      | some stream => world (World.writeStream stream (lead ++ Raw.join [' '] texts ++ ['\n']))
      | none => pure (.ok ())

def call (inner : Evaluator) (tested : Bool) (body : Command) (args : List Raw) :
    Execution Nat := fun before =>
  let s := before.session
  let session := { s with
    params := args, loops := 0, calls := s.calls + 1, optionOffset := 0, scopes := [] :: s.scopes }
  let (result, after) := ((inner.run tested body).run { before with session := session }).run
  let own := after.session.scopes.headD []
  let restored := own.foldl (fun s entry => s.put entry.1 entry.2) after.session
  let restored := { restored with
    params := s.params, loops := s.loops, calls := s.calls, optionOffset := s.optionOffset
    scopes := s.scopes }
  (match result with
    | .error (.return n) => .ok n
    | result => result, { after with session := restored })

def withVariables (assignments : List (Raw × Raw)) (action : Execution Nat) : Execution Nat := do
  let before := (← session).bindings
  assignments.forM fun entry => do
    assign entry.1 entry.2
    modifySession fun s =>
      s.put entry.1 (((s.bindings.lookup entry.1).map fun v => { v with exported := true }))
  fun r =>
    let (result, after) := (action.run r).run
    let restored := assignments.foldl
      (fun s entry => s.put entry.1 (before.lookup entry.1)) after.session
    (result, { after with session := restored })

def runBuiltin (inner : Evaluator) (confined : Bool) (name : Raw) (args : List Raw) :
    Execution Nat := fun before =>
  let session := { before.session with command := some name }
  let (result, after) := ((builtin inner name args).run { before with session := session }).run
  let after := { after with session := { after.session with command := before.session.command } }
  match result with
  | .error (.failure n) => if confined then (.ok n, after) else (result, after)
  | result => (result, after)

def replace (inner : Evaluator) (search : Option Raw) (args : List Raw) : Execution Nat := do
  match args with
  | [] => return 0
  | name :: args =>
    let before := (← session).command
    modifySession fun s => { s with command := some "exec".toList }
    let result ← startProgram inner search name args
    modifySession fun s => { s with command := before }
    match result with
    | .ok finish => throw (.ended finish)
    | .error status => throw (.exit status)

/-- What a command line comes to after `command` is taken off: whether errors are confined, the
question that is asked of the rest, and the rest. -/
structure Resolution where
  confined : Bool
  asks : Option Bool
  standard : Bool
  withoutFunctions : Bool
  words : List Raw

def unwrap : Nat → Resolution → Execution Resolution
  | 0, r => return r
  | n + 1, r => do
    match r.words with
    | name :: rest =>
      if String.ofList name = "command" then
        let (asks, standard, rest) ← commandOptions rest
        let next : Resolution := ⟨true, asks, r.standard || standard, true, rest⟩
        if asks.isSome then return next else unwrap n next
      else return r
    | [] => return r

def standardPath : Raw := "/usr/sbin:/usr/bin:/sbin:/bin".toList

def runWords (inner : Evaluator) (tested : Bool) (r : Resolution) : Execution Nat := do
  match r.asks, r.words with
  | some _, [] => return 0
  | some verbose, name :: _ => Builtin.describe verbose name
  | none, [] => return 0
  | none, name :: args =>
    let s ← session
    let search := if r.standard then some standardPath else s.valueOf? "PATH".toList
    match if r.withoutFunctions then none else s.functions.lookup name with
    | some body => call inner tested body args
    | none =>
      if name = "exec".toList then replace inner search args
      else if Builtin.isBuiltin name then
        runBuiltin inner (r.confined || !Builtin.isSpecial name) name args
      else
        match ← startProgram inner search name args with
        | .ok finish => settle finish
        | .error status => return status

def argumentFields (inner : Evaluator) (assigns : Bool) (word : Word) : Execution (List Raw) := do
  match assigns, word.assignment? with
  | true, some (name, value) => return [name ++ '=' :: (← assignedText inner value)]
  | _, _ => fieldsOf inner word

def commandFields (inner : Evaluator) : List Word → Execution (List Raw)
  | [] => return []
  | word :: rest => do
    match ← fieldsOf inner word with
    | [] => commandFields inner rest
    | name :: more =>
      let args ← rest.mapM (argumentFields inner (Builtin.assigns name))
      return name :: more ++ args.flatten

def assignAll (inner : Evaluator) (assignments : List (Raw × Word)) :
    Execution (List (Raw × Raw)) :=
  assignments.mapM fun entry => do
    let value ← assignedText inner entry.2
    return (entry.1, value)

def assignmentText (entry : Raw × Raw) : Raw := entry.1 ++ '=' :: entry.2

def hidden : Nat := 1000

def redirectsShell (words : List Raw) : Bool := words == ["exec".toList]

def simple (inner : Evaluator) (tested : Bool) (line : Nat) (assignments : List (Raw × Word))
    (words : List Word) (redirects : List Redirect) : Execution Nat := do
  modifySession fun s => { s with line := line, outputStatus := 0 }
  let fields ← commandFields inner words
  let resolved ← unwrap fields.length ⟨false, none, false, false, fields⟩
  let isSpecial := !resolved.confined && (resolved.words.head?).any Builtin.isSpecial
  let table := (← session).table
  let body : Execution Nat := do
    let errorStream := table.lookup 2
    errorStream.forM (connect hidden)
    if !(← redirectAll inner redirects) then
      if isSpecial then throw (.failure 2) else return 2
    else if fields.isEmpty then
      let given ← assignments.mapM fun entry => do
        let value ← assignedText inner entry.2
        assign entry.1 value
        return (entry.1, value)
      trace (given.map assignmentText) hidden
      return (← session).outputStatus
    else
      let given ← if isSpecial then assignments.mapM fun entry => do
          let value ← assignedText inner entry.2
          assign entry.1 value
          return (entry.1, value)
        else assignAll inner assignments
      trace (given.map assignmentText ++ fields) hidden
      modifySession fun s => { s with table := s.table.filter (·.1 != hidden) }
      if isSpecial then runWords inner tested resolved
      else withVariables given (runWords inner tested resolved)
  if redirectsShell resolved.words then
    let status ← body
    modifySession fun s => { s with table := s.table.filter (·.1 != hidden) }
    return status
  else keepingTable body

/-! Compound commands -/

def round (action : Execution (Option Nat)) : Execution (Option Nat × Option Nat) := fun r =>
  let (result, after) := (action.run r).run
  match result with
  | .ok status => (.ok (status, none), after)
  | .error (.leave levels again) =>
    if 1 < levels then (.error (.leave (levels - 1) again), after)
    else if again then (.ok (some 0, none), after)
    else (.ok (none, some 0), after)
  | .error stop => (.error stop, after)

def rounds (action : Execution (Option Nat)) : Nat → Nat → Execution Nat
  | 0, _ => throw (.ended .overtime)
  | n + 1, status => do
    match ← round action with
    | (some status, _) => rounds action n status
    | (none, some status) => return status
    | (none, none) => return status

def eachRound (action : Raw → Execution Nat) : List Raw → Nat → Execution Nat
  | [], status => return status
  | value :: rest, _ => do
    match ← round (some <$> action value) with
    | (some status, _) => eachRound action rest status
    | (none, stopped) => return stopped.getD 0

def inLoop (action : Execution Nat) : Execution Nat := fun before =>
  let session := { before.session with loops := before.session.loops + 1 }
  let (result, after) := (action.run { before with session := session }).run
  (result, { after with session := { after.session with loops := before.session.loops } })

def maxRounds : Nat := 1000000

def loop (inner : Evaluator) (tested untilSuccess : Bool) (test body : Command) : Execution Nat :=
  inLoop (rounds (do
    let status ← inner.run true test
    if (status == 0) == untilSuccess then return none
    else return some (← inner.run tested body)) maxRounds 0)

def each (inner : Evaluator) (tested : Bool) (line : Nat) (name : Raw) (words : Option (List Word))
    (body : Command) : Execution Nat := do
  modifySession fun s => { s with line := line }
  let values ← match words with
    | none => do pure (← session).params
    | some words => do pure (← words.mapM (fieldsOf inner)).flatten
  inLoop (eachRound (fun value => do
    assign name value
    inner.run tested body) values 0)

def findArm (inner : Evaluator) (subject : Raw) :
    List (List Word × Command) → Execution (Option Command)
  | [] => return none
  | (patterns, body) :: rest => do
    let accepts ← patterns.foldlM (fun found word => do
      if found then return true
      else return (← patternOf inner word).accepts subject) false
    if accepts then return some body else findArm inner subject rest

def lookAhead : Command → Execution Unit
  | .simple _ _ (word :: _) _ => ((Word.bare? word).filter Name.isName).forM fun name => do
    let _ ← Builtin.meaning name
  | _ => return ()

/-- Carries out the commands of a pipeline at the same time, each in a copy of the shell that reads
what the one before it prints. -/
def pipelineFrom (inner : Evaluator) (tested : Bool) (start : Nat) (input : Option Nat) :
    List Command → Execution (List Finish × Nat)
  | [] => return ([], start)
  | command :: rest => do
    lookAhead command
    let s ← session
    world (modify fun w => { w with clock := start })
    let table := match input with
      | some stream => (0, stream) :: s.table.filter (·.1 != 0)
      | none => s.table
    let (next, table) ← if rest.isEmpty then pure (none, table)
      else do
        let (reader, writer) ← world World.addPipe
        pure (some reader, (1, writer) :: table.filter (·.1 != 1))
    let finish ← inCopy inner table (inner.run tested command)
    let ended ← world do return (← get).clock
    if next.isSome then world (World.closePipes (table.filter (·.1 == 1)))
    let (finishes, last) ← pipelineFrom inner tested start next rest
    return (finish :: finishes, max ended last)

def pipeline (inner : Evaluator) (tested : Bool) (commands : List Command) : Execution Nat := do
  let start ← world do return (← get).clock
  let (finishes, ended) ← pipelineFrom inner tested start none commands
  world (modify fun w => { w with clock := ended })
  if finishes.contains .overtime then throw (.ended .overtime)
  else
    (finishes.find? fun finish => match finish with
      | .signal n => n ≠ Signal.interrupt ∧ n ≠ Signal.brokenPipe
      | _ => false).forM announce
    return (finishes.getLastD (.code 0)).status

def background (inner : Evaluator) (command : Command) : Execution Nat := do
  let s ← session
  let process ← world World.newProcess
  let before ← world get
  let null ← world (World.addStream ⟨.device .null, 0, true, true⟩)
  let table := (0, null) :: s.table.filter (·.1 != 0)
  world (modify fun w => { w with group := process })
  let finish ← inCopy inner table (inner.run false command)
  world (World.closePipes table)
  let after ← world get
  world (modify fun w => { w with clock := before.clock, group := before.group })
  modifySession fun s => { s with jobs := ⟨process, after.clock, finish⟩ :: s.jobs }
  return 0

def output (inner : Evaluator) (command : Command) : Execution Raw := do
  let s ← session
  let (reader, writer) ← world World.addPipe
  let table := (1, writer) :: s.table.filter (·.1 != 1)
  let finish ← inCopy inner table (inner.run false command)
  world (World.closePipes [(1, writer)])
  let status ← settle finish
  modifySession fun s => { s with outputStatus := status }
  match ← world (World.readStream reader) with
  | .ok text => return text
  | .error _ => return []

def deliver (inner : Evaluator) : Nat → Execution Unit
  | 0 => return ()
  | n + 1 => do
    let s ← session
    let w ← world get
    if s.isSubshell then return ()
    else
      match w.signals.find? (·.1 == s.process) with
      | none => return ()
      | some entry =>
        world (modify fun w => { w with signals := w.signals.erase entry })
        let signal := entry.2
        match if signal = Signal.kill then none else s.traps.lookup signal with
        | some [] => deliver inner n
        | some task =>
          let _ ← inner.text task
          modifySession fun after => { after with status := s.status }
          deliver inner n
        | none =>
          if Signal.isHarmless signal then deliver inner n
          else if Signal.stops signal then
            Builtin.waitUntil (w.deadline + 1)
            throw (.ended .overtime)
          else throw (.ended (.signal signal))

def checkStatus (tested : Bool) (status : Nat) : Execution Nat := do
  if status ≠ 0 ∧ !tested ∧ (← session).hasOption 'e' then throw (.exit status)
  else return status

def perform (inner : Evaluator) (tested : Bool) : Command → Execution Nat
  | .nothing => return 0
  | .simple line assignments words redirects => do
    let status ← simple inner tested line assignments words redirects
    modifySession fun s => { s with status := status }
    checkStatus tested status
  | .pipeline commands => do
    let status ← pipeline inner tested commands
    modifySession fun s => { s with status := status }
    checkStatus tested status
  | .negation command => do return if (← inner.run true command) = 0 then 1 else 0
  | .both first second => do
    let status ← inner.run true first
    if status = 0 then inner.run tested second else return status
  | .either first second => do
    let status ← inner.run true first
    if status = 0 then return status else inner.run tested second
  | .sequence first second => do
    let _ ← inner.run tested first
    inner.run tested second
  | .background command => background inner command
  | .subshell line body redirects => do
    modifySession fun s => { s with line := line }
    let table := (← session).table
    let finish ← inCopy inner table do
      if ← redirectAll inner redirects then inner.run tested body else return 2
    let status ← settle finish
    modifySession fun s => { s with status := status }
    checkStatus tested status
  | .redirected line body redirects => do
    modifySession fun s => { s with line := line }
    keepingTable do
      if ← redirectAll inner redirects then inner.run tested body else return 2
  | .choice test success failure => do
    if (← inner.run true test) = 0 then inner.run tested success
    else inner.run tested failure
  | .loop untilSuccess test body => loop inner tested untilSuccess test body
  | .each line name words body => each inner tested line name words body
  | .select line subject arms => do
    modifySession fun s => { s with line := line }
    match ← findArm inner (← textOf inner subject) arms with
    | some body => inner.run tested body
    | none => return 0
  | .define _ name body => do
    modifySession fun s =>
      { s with functions := (name, body) :: s.functions.filter (·.1 != name) }
    return 0

def run (inner : Evaluator) (tested : Bool) (command : Command) : Execution Nat := do
  let w ← world get
  if w.credit = 0 then throw (.ended .overtime)
  else if (← session).hasOption 'n' then return 0
  else
    world (modify fun w => { w with credit := w.credit - 1 })
    let isNothing : Bool := match command with
      | .nothing => true
      | _ => false
    let status ← perform inner tested command
    if !isNothing then modifySession fun s => { s with status := status }
    deliver inner 8
    return status

/-- What carries out commands that are nested no more deeply than this. Deeper ones exhaust the
memory of the process. -/
def evaluator (start : Starter) : Nat → Evaluator
  | 0 =>
    { run := fun _ _ => throw (.ended (.signal 11))
      text := fun _ => throw (.ended (.signal 11))
      expand := fun _ _ _ => throw (.ended (.signal 11))
      start := start }
  | n + 1 =>
    let inner := evaluator start n
    { run := run inner
      text := runText inner
      expand := fun split literals word =>
        marksOf inner (output inner) split literals word
      start := start }

end Execution
end MergeTrial.Shell
