import MergeTrial.Shell.Interpreter
import MergeTrial.Shell.Startup
import MergeTrial.Shell.Utility.Table
import MergeTrial.Tool.Discovery

/-! Starting files: the programs of the machine, and scripts by the interpreter that their first
line names. Main definition: `Machine.launch`, which starts a tool's process. -/

namespace MergeTrial

namespace Shell

/-- What is carried out for a file: a program of the machine, and what it is given. -/
structure Image where
  program : String
  name : Raw
  args : List Raw

namespace Image

def maxFiles : Nat := 6

def ofFile (m : Machine) : Nat → Path → Raw → List Raw → Except FileFault Image
  | 0, _, _, _ => .error .tooManyLinks
  | n + 1, path, name, args => do
    match ← m.open? path with
    | .special (.program program) => return ⟨program, name, args⟩
    | .file content mode =>
      if !Right.execute.isIn mode then throw .denied
      else match Interpreter.ofContent? content with
        | none => throw .badExecutable
        | some ([], _) => throw .denied
        | some (program, option) =>
          ofFile m n (Raw.toBytes program) program (option ++ Raw.ofBytes path :: args)
    | .dir .. | .special _ => throw .denied

end Image

def Image.run (start : Starter) (image : Image) (process : Process) : StateM World Finish := do
  let process := { process with name := image.name, args := image.args }
  let before := (← get).machine
  let finish ← if image.program = "sh" then Startup.shell start process
    else match Utility.named? image.program with
      | some work => Work.run work ⟨process, start⟩
      | none => pure (.code 127)
  modify fun w =>
    { w with machine := { w.machine with cwd := before.cwd, mask := before.mask } }
  return finish

/-- Starts files. Processes that start others more deeply than this are taken to run without
end. -/
def starter : Nat → Starter
  | 0 => fun _ _ => return .ok .overtime
  | depth + 1 => fun path process => do
    let w ← get
    match Image.ofFile w.machine Image.maxFiles path process.name process.args with
    | .error fault => return .error fault
    | .ok image =>
      if w.credit = 0 then return .ok .overtime
      else
        set { w with credit := w.credit - 1 }
        return .ok (← image.run (starter depth) process)

def maxProcesses : Nat := 64

def startTime : Nat := 1

def processOf (l : Launch) (environment : List (Raw × Raw)) (table : Descriptors) : Process :=
  ⟨Raw.ofBytes l.program, l.args.map Raw.ofBytes, environment, table⟩

/-- Starts the file at a path in the current directory. Its end counts when all that can still
write to its output is gone. -/
def start (l : Launch) (path : Path) : StateM Machine Ending := fun machine =>
  let environment := machine.searchPath.toList.map fun path => ("PATH".toList, Raw.ofBytes path)
  let action : StateM World (Except FileFault Finish × Pipe × Pipe × Nat) := do
    let null ← World.addStream ⟨.device .null, 0, true, false⟩
    let (_, out) ← World.addPipe
    let (_, err) ← World.addPipe
    let table : Descriptors := [(0, null), (1, out), (2, err)]
    let result ← starter maxProcesses path (processOf l environment table)
    World.closePipes table
    let w ← get
    return (result, w.pipes.getD 0 default, w.pipes.getD 1 default, w.clock)
  let ((result, out, err, clock), after) :=
    (action.run (World.start machine (l.limit - startTime))).run
  let elapsed := max clock (max out.closedAt err.closedAt)
  let texts : Bytes × Bytes := (Raw.toBytes out.text, Raw.toBytes err.text)
  let ending : Ending := match result with
    | .error fault => .refused fault
    | .ok finish =>
      if l.limit < startTime + elapsed then .timedOut
      else match finish with
        | .code n => .exited n texts.1 texts.2
        | .signal _ => .signalled texts.1 texts.2
        | .overtime => .timedOut
  (ending, after.machine)

end Shell

namespace Machine

/-- The path that a process takes its program from. A name alone is looked up on the search
path. -/
def programFile (m : Machine) (program : Path) : Except FileFault Path :=
  if program.contains Path.slash then .ok program
  else
    let paths := m.programDirs.map fun dir => dir.join program
    match paths.find? m.hasExecutable with
    | some path => .ok path
    | none => .error (if paths.any fun path => (m.node? path).isSome then .denied else .missing)

def target (m : Machine) (l : Launch) : Except FileFault (Machine × Path) := do
  if (l.program :: l.workingDir.toList ++ l.args).any (·.contains 0) then throw .nulArgument
  let moved ← m.enter l.workingDir
  return (moved, ← moved.programFile l.program)

def launch : Launcher Id := fun l => do
  let m ← get
  match m.target l with
  | .error fault => return .refused fault
  | .ok (moved, path) =>
    set moved
    let ending ← Shell.start l path
    modify fun after => { after with cwd := m.cwd, mask := m.mask }
    return ending

end Machine
end MergeTrial
