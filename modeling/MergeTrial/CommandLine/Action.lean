import MergeTrial.FileTree.Machine
import MergeTrial.Log.Filter

/-! Actions of the program: they work on the machine, print, log events, and may fail. What was
printed and logged before a failure stays. -/

namespace MergeTrial.CommandLine

structure Transcript where
  output : String
  events : List Log.Event
  log : String
  deriving DecidableEq, Inhabited

namespace Transcript

def empty : Transcript := ⟨"", [], ""⟩

end Transcript

abbrev Action (m : Type → Type) (α : Type) :=
  ExceptT Fault (StateT Transcript (StateT Machine m)) α

namespace Action
variable {m : Type → Type} [Monad m] {α : Type}

def onMachine (action : StateT Machine m α) : Action m α := ExceptT.lift (StateT.lift action)

def machine : Action m Machine := onMachine get

def onFiles (action : FileAction α) : Action m α := do
  match ← onMachine (Machine.lift action.run) with
  | .ok value => return value
  | .error cause => throw (.file cause)

def orFail (outcome : Outcome α) : Action m α :=
  match outcome with
  | .ok value => return value
  | .error fault => throw fault

def say (text : String) : Action m Unit := modify fun t => { t with output := t.output ++ text }

def sayLine (text : String) : Action m Unit := say (text ++ "\n")

def log (event : Log.Event) : Action m Unit :=
  modify fun t => { t with events := t.events ++ [event] }

def logAll (events : List Log.Event) : Action m Unit :=
  modify fun t => { t with events := t.events ++ events }

def node? (path : Path) : Action m (Option Node) := do return (← machine).node? path

def readText (path : Path) : Action m (Except FileFault String) := do
  return (← machine).readText path

end Action
end MergeTrial.CommandLine
