import MergeTrial.Scenario
import MergeTrial.Settings
import MergeTrial.Marker
import MergeTrial.Fault
import MergeTrial.Text.Encoding

/-! What the end of a tool's process means for the scenario. -/

namespace MergeTrial

/-- A process to start: its program, its arguments, where to start it and how long it may run. -/
structure Launch where
  program : Bytes
  args : List Bytes
  workingDir : Option Bytes
  limit : Nat
  deriving DecidableEq

inductive Ending where
  | refused (cause : FileFault)
  | timedOut
  | exited (code : Int) (stdout stderr : Bytes)
  | signalled (stdout stderr : Bytes)

namespace ToolSpec

def withReason (stderr reason : String) : String :=
  if Text.allBlank stderr then reason else Text.trimEnd stderr ++ "\n" ++ reason

def isConflictExit (spec : ToolSpec) (code : Int) : Bool :=
  match spec.conflictExits with
  | some (low, high) => low ≤ code && code ≤ high
  | none => false

def exitStatus? (spec : ToolSpec) (code : Int) (stdout : String) : Option Status :=
  if code = 0 then
    if spec.detectMarkers && Marker.occursIn stdout then some .conflicts else some .success
  else if spec.isConflictExit code then some .conflicts
  else none

/-- Reads the exit code, or the lack of one after a signal. A failed run keeps no output. -/
def interpret (spec : ToolSpec) (code : Option Int) (stdout stderr : String) : Output :=
  match code with
  | none => .failed (withReason stderr "terminated by signal")
  | some code =>
    match spec.exitStatus? code stdout with
    | some status => ⟨status, stdout, stderr⟩
    | none => .failed (withReason stderr ("exited with code " ++ code.repr))

def outcome (spec : ToolSpec) (program : Bytes) (limit : Nat) : Ending → Output
  | .refused cause =>
    .failed ("failed to launch " ++ Bytes.display program ++ ": " ++ cause.message)
  | .timedOut => .failed ("timed out after " ++ toString limit ++ " ms")
  | .exited code stdout stderr =>
    spec.interpret (some code) (Bytes.display stdout) (Bytes.display stderr)
  | .signalled stdout stderr =>
    spec.interpret none (Bytes.display stdout) (Bytes.display stderr)

end ToolSpec
end MergeTrial
