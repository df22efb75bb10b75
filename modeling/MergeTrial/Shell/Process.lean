import MergeTrial.Shell.World

/-! Processes: what a program is given, what it does, and how it ends. -/

namespace MergeTrial.Shell

inductive Finish where
  | code (n : Nat)
  | signal (n : Nat)
  | overtime
  deriving DecidableEq, Inhabited

namespace Finish

def status : Finish → Nat
  | .code n => n
  | .signal n => 128 + n
  | .overtime => 128 + 9

end Finish

structure Process where
  name : Raw
  args : List Raw
  environment : List (Raw × Raw)
  table : Descriptors
  deriving Inhabited

abbrev Starter := Path → Process → StateM World (Except FileFault Finish)

structure Setting where
  process : Process
  start : Starter

abbrev Work (α : Type) := ReaderT Setting (ExceptT Finish (StateM World)) α

namespace Work

def world {α : Type} (action : StateM World α) : Work α := fun _ => ExceptT.lift action

def args : Work (List Raw) := do return (← read).process.args

def name : Work Raw := do return (← read).process.name

def machine : Work Machine := world do return (← get).machine

def exit {α : Type} (n : Nat) : Work α := throw (.code n)

def valueOf? (name : Raw) : Work (Option Raw) := do
  return (← read).process.environment.lookup name

def stream? (descriptor : Nat) : Work (Option Nat) := do
  return (← read).process.table.lookup descriptor

def write (descriptor : Nat) (text : Raw) : Work (Except FileFault Unit) := do
  if text.isEmpty then return .ok ()
  else
    match ← stream? descriptor with
    | none => return .error .badDescriptor
    | some stream => world (World.writeStream stream text)

def complain (message : Raw) : Work Unit := do
  let _ ← write 2 ((← name) ++ ": ".toList ++ message ++ ['\n'])

def complainText (message : String) : Work Unit := complain (Raw.ofString message)

def failWith {α : Type} (n : Nat) (message : Raw) : Work α := do
  complain message
  exit n

def unwritable (program : String) (fault : FileFault) : Nat × List String :=
  let reason := fault.reason
  let plain := "write error: " ++ reason
  match program with
  | "cmp" => if fault = .badDescriptor then (1, []) else (2, ["standard output: " ++ reason])
  | "diff" | "diff3" => (2, ["standard output: " ++ reason])
  | "env" | "nice" => (125, [plain])
  | "expr" => (3, [plain])
  | "grep" | "ls" | "printenv" => (2, [plain])
  | "sed" =>
    (4, [(if fault = .badDescriptor then "couldn't close stdout: " else "couldn't flush stdout: ")
      ++ reason])
  | "sort" => (2, ["fflush failed: 'standard output': " ++ reason, "write error"])
  | "tee" => (1, ["'standard output': " ++ reason])
  | "wc" => (1, ["write error"])
  | _ => (1, [plain])

def say (text : Raw) : Work Unit := do
  match ← write 1 text with
  | .ok () => return ()
  | .error fault =>
    let program := (Raw.splitOn '/' (← name)).getLastD []
    let (status, messages) := unwritable (String.ofList program) fault
    messages.forM complainText
    exit status

def sayLine (text : Raw) : Work Unit := say (text ++ ['\n'])

def readInput : Work (Except FileFault Raw) := do
  match ← stream? 0 with
  | none => return .error .badDescriptor
  | some stream => world (World.readStream stream)

def readFile (path : Raw) : Work (Except FileFault Raw) := do
  match ← world (World.openInput (← read).process.table (Raw.toBytes path)) with
  | .error fault => return .error fault
  | .ok stream => world (World.readStream stream)

def readOperand (operand : Raw) : Work (Except FileFault Raw) :=
  if operand = ['-'] then readInput else readFile operand

/-- Where the file behind one of the process's numbers is, if it is a file, and how far it has been
read or written. -/
def place? (descriptor : Nat) : Work (Option (Location × Nat)) := do
  match ← stream? descriptor with
  | none => return none
  | some number =>
    match (← world get).streams[number]? with
    | some ⟨.file location _, offset, _, _⟩ => return some (location, offset)
    | _ => return none

/-- Whether the input or the file at a path is the file that the output goes to, and how much of it
has not been read. -/
def overlap? (operand : Raw) : Work (Option Nat) := do
  let source ← if operand = ['-'] then place? 0
    else do pure (((← machine).resolve (Raw.toBytes operand)).toOption.map fun p => (p.location, 0))
  match source, ← place? 1 with
  | some (location, offset), some (target, _) =>
    if location = target then
      match (← machine).root.at? location with
      | some (.file content _) => return some (content.length - offset)
      | _ => return none
    else return none
  | _, _ => return none

def writeFile (path text : Raw) : Work (Except FileFault Unit) := do
  match ← world (World.openOutput (← read).process.table (Raw.toBytes path) true false false) with
  | .error fault => return .error fault
  | .ok stream => world (World.writeStream stream text)

def onFiles {α : Type} (action : FileAction α) : Work (Except FileFault α) :=
  world (World.onMachine action.run)

def waitUntil (time : Nat) : Work Unit := do
  let deadline ← world do return (← get).deadline
  if deadline < time then
    world (World.wait (deadline + 1))
    throw .overtime
  else world (World.wait time)

def searchDirs (value : Option Raw) : List Path :=
  match value with
  | some value => Path.splitOn Path.colon (Raw.toBytes value)
  | none => [Bytes.ofString "/bin", Bytes.ofString "/usr/bin"]

def startFile (path : Path) (process : Process) : Work (Except FileFault Finish) := do
  let start := (← read).start
  match ← world (start path process) with
  | .error .badExecutable =>
    let shell := "/bin/sh".toList
    world (start (Raw.toBytes shell)
      { process with name := shell, args := Raw.ofBytes path :: process.args })
  | result => return result

def launch (process : Process) : Work (Except FileFault Finish) := do
  let path := Raw.toBytes process.name
  if path.contains Path.slash then startFile path process
  else
    let m ← machine
    let dirs := searchDirs (process.environment.lookup "PATH".toList)
    let paths := dirs.map fun dir => dir.join path
    match if path.isEmpty then none else paths.find? m.hasExecutable with
    | some path => startFile path process
    | none =>
      let isThere := !path.isEmpty && paths.any fun path => (m.node? path).isSome
      return .error (if isThere then .denied else .missing)

def run (task : Work Unit) (setting : Setting) : StateM World Finish := do
  let result : Except Finish Unit ← ExceptT.run (task setting)
  match result with
  | .ok () => return .code 0
  | .error finish => return finish

end Work
end MergeTrial.Shell
