import MergeTrial.Tool.Run
import MergeTrial.Pass.Sweep

/-! Passes whose strategies are tools: all of them are discovered first, then the scenarios are
swept. -/

namespace MergeTrial.Tool
variable {m : Type → Type} [Monad m]

def discoverAll (launch : Launcher m) (tools : List Tool) : StateT Machine m (List Tool) :=
  tools.mapM fun tool => do
    let (_, tool) ← tool.resolve launch
    return tool

def resolved? (tool : Tool) : Option Resolved := tool.discovery.bind (·.found)

def entrant (launch : Launcher m) (tool : Tool) : Pass.Entrant (StateT Machine m) where
  name := tool.spec.name
  available := tool.resolved?.isSome
  call := fun scenario => do
    let (output, _) ← tool.run launch scenario
    return ⟨0, some output⟩

def distinct (tools : List Tool) : List Tool := Pass.distinct (·.spec.name) tools

def evaluate (launch : Launcher m) (settings : PassSettings) (tools : List Tool)
    (corpus : Corpus) : StateT Machine m (Outcome Evaluation) :=
  Pass.evaluate settings (return false) (tools.map (entrant launch)) corpus

end MergeTrial.Tool
