import MergeTrial.Shell.Signal
import MergeTrial.Shell.Utility.Words

/-! Programs that start others, and those that only succeed or fail. -/

namespace MergeTrial.Shell.Utility
open Work

def becomeWith (lead : String) (environment : List (Raw × Raw)) (name : Raw) (args : List Raw) :
    Work Unit := do
  let process : Process := ⟨name, args, environment, (← read).process.table⟩
  match ← launch process with
  | .ok finish => throw finish
  | .error fault =>
    complain (Raw.ofString lead ++ quoted name ++ Raw.ofString (": " ++ fault.reason))
    if fault = .missing ∧ name.any Raw.isSpace ∧ lead.isEmpty then
      complainText "use -[v]S to pass options in shebang lines"
    exit (if fault = .missing then 127 else 126)

def become (lead : String) (words : List Raw) : Work Unit := do
  match words with
  | [] => return ()
  | name :: args => becomeWith lead (← read).process.environment name args

def succeed : Work Unit := return ()

def fail : Work Unit := exit 1

def showEnvironment (ending : Char) (environment : List (Raw × Raw)) : Work Unit :=
  say (environment.flatMap fun entry => entry.1 ++ '=' :: entry.2 ++ [ending])

def splitWords : Option Char → Option Raw → Raw → List Raw
  | _, current, [] => current.toList.map List.reverse
  | none, current, c :: rest =>
    if Raw.isSpace c then current.toList.map List.reverse ++ splitWords none none rest
    else if c = '\'' ∨ c = '"' then splitWords (some c) (some (current.getD [])) rest
    else match c, rest with
      | '\\', d :: rest => splitWords none (some (d :: current.getD [])) rest
      | c, rest => splitWords none (some (c :: current.getD [])) rest
  | some quote, current, c :: rest =>
    if c = quote then splitWords none current rest
    else splitWords (some quote) (some (c :: current.getD [])) rest

def envFlags : List Flag :=
  [.plain 'i' ["ignore-environment"], .plain '0' ["null"], .valued 'u' ["unset"],
    .valued 'C' ["chdir"], .valued 'S' ["split-string"], .plain 'v' ["debug"]]

def splitArguments : List Raw → List Raw
  | ('-' :: 'S' :: text) :: rest => splitWords none none text ++ rest
  | args => args

def env : Work Unit := do
  let given := splitArguments (← args)
  let a ← match Arguments.read envFlags true given with
    | .ok a => pure a
    | .error message => misuse 125 message
  let (clears, words) := match a.operands with
    | ['-'] :: words => (true, words)
    | words => (a.has 'i', words)
  let words := ((a.value? 'S').map (splitWords none none)).getD [] ++ words
  let inherited := (← read).process.environment
  let kept := if clears then []
    else inherited.filter fun entry => !(a.values 'u').contains entry.1
  let isAssignment (word : Raw) : Bool := word.contains '='
  let environment := (words.takeWhile isAssignment).foldl (fun vars word =>
    let name := word.takeWhile (· != '=')
    let value := word.drop (name.length + 1)
    if vars.any (·.1 == name) then
      vars.map fun entry => if entry.1 == name then (name, value) else entry
    else vars ++ [(name, value)]) kept
  let words := words.dropWhile isAssignment
  match a.value? 'C' with
  | none => pure ()
  | some dir =>
    if words.isEmpty then misuse 125 "must specify command with --chdir (-C)".toList
    else match (← machine).enter (some (Raw.toBytes dir)) with
      | .ok m => world (modify fun w => { w with machine := m })
      | .error fault =>
        cannot "change directory to" dir fault
        exit 125
  match words with
  | [] => showEnvironment (if a.has '0' then '\x00' else '\n') environment
  | name :: args => becomeWith "" environment name args

def printenv : Work Unit := do
  let a ← arguments [.plain '0' ["null"]] true 2
  let ending := if a.has '0' then '\x00' else '\n'
  if a.operands.isEmpty then showEnvironment ending (← read).process.environment
  else
    forEach a.operands fun name => do
      match ← valueOf? name with
      | some value =>
        say (value ++ [ending])
        return true
      | none => return false

def nohup : Work Unit := do
  let a ← arguments [] true 125
  if a.operands.isEmpty then misuse 125 "missing operand".toList
  else become "failed to run command " a.operands

def nice : Work Unit := do
  let a ← arguments [.valued 'n' ["adjustment"]] true 125
  if a.operands.isEmpty then sayLine ['0'] else become "" a.operands

def timeoutFlags : List Flag :=
  [.valued 'k' ["kill-after"], .valued 's' ["signal"], .plain 'v' ["verbose"],
    .long 'F' .nothing "foreground", .long 'P' .nothing "preserve-status"]

def runUntil (time : Nat) (process : Process) : Work (Except FileFault (Option Finish)) := do
  let before ← world get
  let limit := min before.deadline time
  world (modify fun w => { w with deadline := limit })
  let result ← launch process
  world (modify fun w => { w with deadline := before.deadline })
  match result with
  | .error fault => return .error fault
  | .ok .overtime =>
    if limit < before.deadline then
      world (modify fun w => { w with clock := limit, credit := before.credit })
      return .ok none
    else throw .overtime
  | .ok finish => return .ok (some finish)

def timeout : Work Unit := do
  let a ← arguments timeoutFlags true 125
  let signal ← match a.value? 's' with
    | none => pure Signal.terminate
    | some text =>
      let name := if "SIG".toList.isPrefixOf text then text.drop 3 else text
      match Signal.ofText? name with
      | some n => pure n
      | none => misuse 125 (quoted text ++ ": invalid signal".toList)
  match a.operands with
  | duration :: name :: args =>
    match duration? duration with
    | none => misuse 125 ("invalid time interval ".toList ++ quoted duration)
    | some time =>
      let process : Process :=
        ⟨name, args, (← read).process.environment, (← read).process.table⟩
      let start ← now
      let limit := if time = 0 then 1 <<< 62 else start + time
      match ← runUntil limit process with
      | .ok (some finish) => exit finish.status
      | .ok none =>
        if signal = Signal.kill then throw (.signal Signal.kill)
        else exit (if a.has 'P' then 128 + signal else 124)
      | .error fault =>
        complain ("failed to run command ".toList ++ quoted name
          ++ Raw.ofString (": " ++ fault.reason))
        exit (if fault = .missing then 127 else 126)
  | _ => tryHelp 125

def uname : Work Unit := do
  let a ← arguments [.plain 's' ["kernel-name"], .plain 'o' ["operating-system"]] false 1
  match a.operands with
  | [] => sayLine (if a.has 'o' ∧ !a.has 's' then "GNU/Linux".toList
      else if a.has 'o' then "Linux GNU/Linux".toList else "Linux".toList)
  | operand :: _ => misuse 1 ("extra operand ".toList ++ quoted operand)

/-! Starting a program again and again with arguments that come in -/

namespace Batches

structure Item where
  text : Raw
  endsLine : Bool

inductive Mode where
  | between
  | inside
  | quote (mark : Char)
  | escape

structure Reading where
  mode : Mode
  current : Raw
  items : List Item
  open? : Option Char

def step (wholeLines : Bool) (r : Reading) (c : Char) : Reading :=
  if r.open?.isSome then r
  else
    let plain : Reading :=
      if c = '\\' then { r with mode := .escape }
      else if c = '\'' ∨ c = '"' then { r with mode := .quote c }
      else { r with mode := .inside, current := c :: r.current }
    let ended (endsLine : Bool) : Reading :=
      { r with
        mode := .between, current := [], items := ⟨r.current.reverse, endsLine⟩ :: r.items }
    match r.mode with
    | .between =>
      if Raw.isSpace c then r else plain
    | .inside =>
      if c = '\n' then ended true
      else if !wholeLines ∧ Raw.isBlank c then ended false
      else plain
    | .quote mark =>
      if c = mark then { r with mode := .inside }
      else if c = '\n' then { r with open? := some mark }
      else { r with current := c :: r.current }
    | .escape => { r with mode := .inside, current := c :: r.current }

def itemsOf (wholeLines : Bool) (text : Raw) : Except Char (List Item) :=
  let r := text.foldl (step wholeLines) ⟨.between, [], [], none⟩
  match r.open?, r.mode with
  | some mark, _ | none, .quote mark => .error mark
  | none, .between => .ok r.items.reverse
  | none, _ => .ok (⟨r.current.reverse, true⟩ :: r.items).reverse

/-- Groups of so many items, or of items from so many lines. -/
def group (most : Option Nat) (lines : Option Nat) :
    List Raw → Nat → List Item → List (List Raw)
  | [], _, [] => []
  | current, _, [] => [current.reverse]
  | current, seen, item :: rest =>
    let current := item.text :: current
    let seen := if item.endsLine then seen + 1 else seen
    if most.any (· ≤ current.length) || lines.any (· ≤ seen) then
      current.reverse :: group most lines [] 0 rest
    else group most lines current seen rest

def replace (pattern replacement : Raw) : Nat → Raw → Raw
  | _, [] => []
  | skip + 1, _ :: rest => replace pattern replacement skip rest
  | 0, c :: rest =>
    if !pattern.isEmpty && pattern.isPrefixOf (c :: rest) then
      replacement ++ replace pattern replacement (pattern.length - 1) rest
    else c :: replace pattern replacement 0 rest

end Batches

def xargsFlags : List Flag :=
  [.plain '0' ["null"], .valued 'a' ["arg-file"], .valued 'd' ["delimiter"], .valued 'E' [],
    .valued 'I' [], ⟨'i', .maybe, ["replace"], true⟩, .valued 'L' [],
    ⟨'l', .maybe, ["max-lines"], true⟩, .valued 'n' ["max-args"], .valued 'P' ["max-procs"],
    .plain 'r' ["no-run-if-empty"], .valued 's' ["max-chars"], .plain 't' ["verbose"],
    .plain 'x' ["exit"]]

def xargsNumber (letter : Char) (text : Raw) : Work Nat := do
  match Raw.nat? text with
  | some 0 =>
    misuse 1 ("value ".toList ++ text ++ " for -".toList ++ [letter]
      ++ " option should be >= 1".toList)
  | some n => return n
  | none =>
    misuse 1 ("invalid number \"".toList ++ text ++ "\" for -".toList ++ [letter]
      ++ " option".toList)

def runBatch (verbose : Bool) (words : List Raw) : Work Bool := do
  let null ← world (World.addStream ⟨.device .null, 0, true, false⟩)
  let table := (← read).process.table
  let name := words.headD []
  let process : Process :=
    ⟨name, words.drop 1, (← read).process.environment,
      (0, null) :: table.filter (·.1 != 0)⟩
  if verbose then
    let _ ← write 2 (Raw.join [' '] (words.map shown) ++ ['\n'])
  match ← launch process with
  | .error fault =>
    complain (name ++ Raw.ofString (": " ++ fault.reason))
    exit (if fault = .missing then 127 else 126)
  | .ok (.code 255) =>
    complain (name ++ ": exited with status 255; aborting".toList)
    exit 124
  | .ok (.signal n) =>
    complain (name ++ Raw.ofString s!": terminated by signal {n}")
    exit 125
  | .ok .overtime => throw .overtime
  | .ok (.code n) => return n == 0

def xargs : Work Unit := do
  let a ← arguments xargsFlags true 1
  let most ← (a.value? 'n').mapM (xargsNumber 'n')
  let lines ← match a.lastOf "Ll" with
    | some 'L' => (a.value? 'L').mapM (xargsNumber 'L')
    | some _ => (a.value? 'l').mapM fun (text : Raw) =>
        if text.isEmpty then pure 1 else xargsNumber 'l' text
    | none => pure none
  let pattern := match a.lastOf "Ii" with
    | some 'I' => a.value? 'I'
    | some _ => (a.value? 'i').map fun (text : Raw) => if text.isEmpty then "\x7b\x7d".toList else text
    | none => none
  let separator := if a.has '0' then some '\x00' else
    (a.value? 'd').map fun text => match text with
      | ['\\', 'n'] => '\n'
      | ['\\', 't'] => '\t'
      | ['\\', '0'] => '\x00'
      | c :: _ => c
      | [] => '\n'
  let source ← match a.value? 'a' with
    | none => readInput
    | some path => readFile path
  let text ← match source with
    | .ok text => pure text
    | .error fault => do
      let path := (a.value? 'a').getD []
      failWith 1 ("Cannot open input file ".toList ++ quoted path
        ++ Raw.ofString (": " ++ fault.reason))
  let (items, unclosed) ← match separator with
    | some c =>
      let parts := Raw.splitOn c text
      let parts := if parts.getLast? = some [] then parts.dropLast else parts
      pure (parts.map fun part => (⟨part, true⟩ : Batches.Item), none)
    | none =>
      match Batches.itemsOf pattern.isSome text with
      | .ok items => pure (items, none)
      | .error mark => pure ([], some mark)
  match unclosed with
  | some mark =>
    let kind := if mark = '"' then "double" else "single"
    failWith 1 (Raw.ofString ("unmatched " ++ kind
      ++ " quote; by default quotes are special to xargs unless you use the -0 option"))
  | none => pure ()
  let command := if a.operands.isEmpty then ["echo".toList] else a.operands
  let commands := match pattern with
    | some pattern => items.map fun (item : Batches.Item) =>
        command.map (Batches.replace pattern item.text 0)
    | none =>
      let groups := Batches.group most lines [] 0 items
      if groups.isEmpty then (if a.has 'r' then [] else [command])
      else groups.map (command ++ ·)
  let results ← commands.mapM (runBatch (a.has 't'))
  if results.contains false then exit 123

end MergeTrial.Shell.Utility
