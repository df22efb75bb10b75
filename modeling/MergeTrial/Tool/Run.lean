import MergeTrial.Tool.Discovery
import MergeTrial.Tool.Staging

/-! Running a tool on a scenario. Discovery takes place at the first use and holds from then on. -/

namespace MergeTrial

structure Tool where
  spec : ToolSpec
  timeout : Nat
  scratchRoot : Option Path
  -- what discovery found, once it has taken place
  discovery : Option (Discovery Resolved)

namespace Tool
variable {m : Type → Type} [Monad m]

def ofSpec (spec : ToolSpec) (timeout : Nat) (scratchRoot : Option Path) : Tool :=
  ⟨spec, timeout, scratchRoot, none⟩

def ofSettings (settings : PassSettings) (specs : List ToolSpec) : List Tool :=
  specs.map fun spec =>
    ofSpec spec settings.timeout (settings.scratchDir.map Bytes.ofString)

def resolveWith (discover : ToolSpec → StateT Machine m (Discovery Resolved)) (tool : Tool) :
    StateT Machine m (Option Resolved × Tool) := do
  match tool.discovery with
  | some discovery => return (discovery.found, tool)
  | none =>
    let discovery ← discover tool.spec
    return (discovery.found, { tool with discovery := some discovery })

def resolve (launch : Launcher m) (tool : Tool) : StateT Machine m (Option Resolved × Tool) :=
  tool.resolveWith fun spec => spec.discover launch

def runResolved (launch : Launcher m) (tool : Tool) (resolved : Resolved) (scenario : Scenario) :
    StateT Machine m Output := do
  let ended ← Staging.within tool.scratchRoot scenario fun paths =>
    launch ⟨resolved.program, (renderArgs resolved.args paths).map Bytes.ofString,
      tool.spec.workingPath, tool.timeout⟩
  match ended with
  | .error fault => return .failed ("failed to stage inputs: " ++ fault.message)
  | .ok ending => return tool.spec.outcome resolved.program tool.timeout ending

def runWith (discover : ToolSpec → StateT Machine m (Discovery Resolved)) (launch : Launcher m)
    (tool : Tool) (scenario : Scenario) : StateT Machine m (Output × Tool) := do
  let (resolved, tool) ← tool.resolveWith discover
  match resolved with
  | none => return (.skipped (tool.spec.name ++ " could not be located"), tool)
  | some resolved => return (← tool.runResolved launch resolved scenario, tool)

def run (launch : Launcher m) (tool : Tool) (scenario : Scenario) :
    StateT Machine m (Output × Tool) :=
  tool.runWith (fun spec => spec.discover launch) launch scenario

end Tool
end MergeTrial
