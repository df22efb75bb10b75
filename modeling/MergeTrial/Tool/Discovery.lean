import MergeTrial.Tool.Outcome
import MergeTrial.FileTree.Machine

/-! Finding a tool: the first candidate whose program is there, building it on demand if there is
none. -/

namespace MergeTrial

/-- A candidate that was found: the path to its program and its further arguments. -/
structure Resolved where
  program : Path
  args : List String
  deriving DecidableEq, Inhabited

/-- What discovery did and found. `built` says how the build ended, if it took place. -/
structure Discovery (α : Type) where
  built : Option Bool
  found : Option α

/-- Walks the candidates, and once more after a build that succeeds. -/
def discoverWith {m : Type → Type} [Monad m] {α : Type} (walk : m (Option α))
    (build : Option (m Bool)) : m (Discovery α) := do
  match ← walk, build with
  | some found, _ => return ⟨none, some found⟩
  | none, none => return ⟨none, none⟩
  | none, some build =>
    if ← build then return ⟨some true, ← walk⟩ else return ⟨some false, none⟩

/-- Starts processes on the machine, and may do more, such as keeping a list of them. -/
abbrev Launcher (m : Type → Type) := Launch → StateT Machine m Ending

namespace Machine

def searchDirs (m : Machine) : List Path :=
  match m.searchPath with
  | some value => Path.splitOn Path.colon value
  | none => []

def programDirs (m : Machine) : List Path :=
  if m.searchPath.isSome then m.searchDirs
  else [Bytes.ofString "/bin", Bytes.ofString "/usr/bin"]

/-- The path to an executable program. A name alone is looked up on the search path; a path is
taken as it is, from the working directory if it is relative and one is given. -/
def locate (m : Machine) (program : Path) (workingDir : Option Path) : Option Path :=
  if program.isExplicit then
    let full := match workingDir with
      | some dir => dir.join program
      | none => program
    if m.hasExecutable full then some full else none
  else (m.searchDirs.map fun dir => dir.join program).find? m.hasExecutable

end Machine

namespace ToolSpec
variable {m : Type → Type} [Monad m]

def workingPath (spec : ToolSpec) : Option Path := spec.workingDir.map Bytes.ofString

def resolveCandidate (machine : Machine) (spec : ToolSpec) : List String → Option Resolved
  | [] => none
  | program :: args =>
    (machine.locate (Bytes.ofString program) spec.workingPath).map fun path => ⟨path, args⟩

def findCandidate (machine : Machine) (spec : ToolSpec) : Option Resolved :=
  spec.candidates.findSome? (spec.resolveCandidate machine)

def runBuild (launch : Launcher m) (spec : ToolSpec) : List String → StateT Machine m Bool
  | [] => return false
  | program :: args => do
    match ← launch ⟨Bytes.ofString program, args.map Bytes.ofString, spec.workingPath,
      spec.buildTimeout⟩ with
    | .exited code _ _ => return code == 0
    | _ => return false

def discover (launch : Launcher m) (spec : ToolSpec) :
    StateT Machine m (Discovery Resolved) :=
  discoverWith (do return spec.findCandidate (← get)) (spec.build.map (spec.runBuild launch))

end ToolSpec
end MergeTrial
