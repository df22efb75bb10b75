import MergeTrial.Shell.Process
import MergeTrial.Shell.Command
import MergeTrial.Shell.Arithmetic
import MergeTrial.Shell.Field

/-! The state of a running script, the ways in which it ends, and its parameters. -/

namespace MergeTrial.Shell

structure Variable where
  -- none if the variable only has its attributes so far
  value : Option Raw
  exported : Bool
  readOnly : Bool
  deriving Inhabited

/-- A command that runs beside the script, or did. -/
structure Job where
  process : Nat
  endsAt : Nat
  finish : Finish
  deriving Inhabited

structure Session where
  name : Raw
  params : List Raw
  bindings : List (Raw × Variable)
  functions : List (Raw × Command)
  aliases : List (Raw × Raw)
  found : List (Raw × Path)
  options : List Char
  status : Nat
  outputStatus : Nat
  table : Descriptors
  traps : List (Nat × Raw)
  process : Nat
  jobs : List Job
  line : Nat
  command : Option Raw
  -- what variables were before functions made them their own, the innermost function first
  scopes : List (List (Raw × Option Variable))
  documents : List (Nat × Word)
  documentCount : Nat
  loops : Nat
  calls : Nat
  optionOffset : Nat
  isSubshell : Bool
  deriving Inhabited

/-- Why a script does not go on with the next command. -/
inductive Stop where
  | exit (status : Nat)
  | failure (status : Nat)
  | ended (finish : Finish)
  -- loops are left; the last of them may go on with its next round
  | leave (levels : Nat) (again : Bool)
  | return (status : Nat)
  deriving Inhabited

structure Running where
  session : Session
  world : World
  deriving Inhabited

/-- What a script does; it may stop before its end. -/
abbrev Execution (α : Type) := ExceptT Stop (StateM Running) α

structure Evaluator where
  run : (tested : Bool) → Command → Execution Nat
  text : Raw → Execution Nat
  expand : (split literals : Bool) → Word → Execution (List Mark)
  start : Starter

namespace Execution

def session : Execution Session := do return (← get).session

def modifySession (change : Session → Session) : Execution Unit :=
  modify fun r => { r with session := change r.session }

def world {α : Type} (action : StateM World α) : Execution α := fun r =>
  let (result, world) := (action.run r.world).run
  (.ok result, { r with world := world })

def machine : Execution Machine := do return (← get).world.machine

def write (descriptor : Nat) (text : Raw) : Execution (Except FileFault Unit) := do
  if text.isEmpty then return .ok ()
  else
    match (← session).table.lookup descriptor with
    | none => return .error .badDescriptor
    | some stream => world (World.writeStream stream text)

def complain (message : Raw) : Execution Unit := do
  let s ← session
  let command := match s.command with
    | some name => name ++ ": ".toList
    | none => []
  let _ ← write 2 (s.name ++ Raw.ofString (": " ++ toString s.line ++ ": ") ++ command ++ message
    ++ ['\n'])

def failWith {α : Type} (message : Raw) : Execution α := do
  complain message
  throw (.failure 2)

def illegalNumber {α : Type} (text : Raw) : Execution α :=
  failWith ("Illegal number: ".toList ++ text)

def number (text : Raw) : Execution Nat := do
  match Arithmetic.ofText? true false text with
  | some n => if 0 ≤ n ∧ n ≤ 2147483647 then return n.toNat else illegalNumber text
  | none => illegalNumber text

end Execution

namespace Session

def hasOption (s : Session) (c : Char) : Bool := s.options.contains c

def valueOf? (s : Session) (name : Raw) : Option Raw :=
  (s.bindings.lookup name).bind (·.value)

def lookup (s : Session) (name : Raw) : Option Raw :=
  match name with
  | ['#'] => some (Raw.ofNat s.params.length)
  | ['?'] => some (Raw.ofNat s.status)
  | ['$'] => some (Raw.ofNat s.process)
  | ['!'] => (s.jobs.head?).map fun job => Raw.ofNat job.process
  | ['-'] => some (s.options.filter (' ' < ·))
  | _ =>
    match Raw.nat? name with
    | some 0 => some s.name
    | some n => s.params[n - 1]?
    | none => s.valueOf? name

def putIn (name : Raw) (value : Variable) : List (Raw × Variable) → List (Raw × Variable)
  | [] => [(name, value)]
  | entry :: rest =>
    if entry.1 = name then (name, value) :: rest else entry :: putIn name value rest

def put (s : Session) (name : Raw) (value : Option Variable) : Session :=
  { s with bindings := match value with
    | some value => putIn name value s.bindings
    | none => s.bindings.filter (·.1 != name) }

def orderKey (size : Nat) (name : Raw) : Nat :=
  name.foldl (fun sum c => sum + c.toNat) (((name.head?).elim 0 Char.toNat) * 16) % size

def kept {α : Type} (size : Nat) (entries : List (Raw × α)) : List (Raw × α) :=
  entries.mergeSort fun a b => decide (orderKey size a.1 ≤ orderKey size b.1)

def environment (s : Session) : List (Raw × Raw) :=
  let exported := s.bindings.filterMap fun entry =>
    if entry.2.exported then entry.2.value.map fun value => (entry.1, value) else none
  kept 39 exported

def separators (s : Session) : Raw := (s.valueOf? "IFS".toList).getD [' ', '\t', '\n']

end Session

namespace Execution

def assign (name value : Raw) : Execution Unit := do
  let s ← session
  let old := s.bindings.lookup name
  if old.any (·.readOnly) then failWith (name ++ ": is read only".toList)
  else
    let exported := old.any (·.exported) || s.hasOption 'a'
    modifySession fun s =>
      let s := s.put name (some ⟨some value, exported, false⟩)
      if name = "PATH".toList then { s with found := [] } else s

end Execution
end MergeTrial.Shell
