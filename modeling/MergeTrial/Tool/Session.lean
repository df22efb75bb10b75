import MergeTrial.Tool.Run

/-! A tool in use. Its calls are made one after the other, each once the one before has been
answered, and anything may happen to the machine in between. -/

namespace MergeTrial.Tool
variable {m : Type → Type} [Monad m]

inductive Call where
  | available
  | program
  | run (scenario : Scenario)

inductive Answer where
  | available (there : Bool)
  | program (path : Option Path)
  | output (output : Output)
  deriving DecidableEq

section
variable (discover : ToolSpec → StateT Machine m (Discovery Resolved)) (launch : Launcher m)

def available (tool : Tool) : StateT Machine m (Bool × Tool) := do
  let (resolved, tool) ← tool.resolveWith discover
  return (resolved.isSome, tool)

def program? (tool : Tool) : StateT Machine m (Option Path × Tool) := do
  let (resolved, tool) ← tool.resolveWith discover
  return (resolved.map (·.program), tool)

def answer (tool : Tool) : Call → StateT Machine m (Answer × Tool)
  | .available => do
    let (there, tool) ← tool.available discover
    return (.available there, tool)
  | .program => do
    let (path, tool) ← tool.program? discover
    return (.program path, tool)
  | .run scenario => do
    let (output, tool) ← tool.runWith discover launch scenario
    return (.output output, tool)

/-- The answers to a sequence of calls, each after a change of the machine. -/
def sessionWith : Tool → List (StateT Machine m Unit × Call) → StateT Machine m (List Answer)
  | _, [] => return []
  | tool, (change, call) :: rest => do
    change
    let (answer, tool) ← tool.answer discover launch call
    return answer :: (← sessionWith tool rest)

end

def session (launch : Launcher m) (tool : Tool) (calls : List (StateT Machine m Unit × Call)) :
    StateT Machine m (List Answer) :=
  tool.sessionWith (fun spec => spec.discover launch) launch calls

end MergeTrial.Tool
