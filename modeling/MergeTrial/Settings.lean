import MergeTrial.Verdict
import MergeTrial.Json.Reader
import MergeTrial.Json.Printer
import MergeTrial.Json.Shape

/-! Settings and their written form. Absent fields take their defaults. -/

namespace MergeTrial

structure ToolSpec where
  name : String
  candidates : List (List String)
  -- the exit codes, ends included, that mean "merged, with conflicts"
  conflictExits : Option (Int × Int)
  detectMarkers : Bool
  build : Option (List String)
  buildTimeout : Nat
  workingDir : Option String
  deriving DecidableEq, Inhabited

structure PassSettings where
  timeout : Nat
  jobs : Nat
  policy : Policy
  scratchDir : Option String
  deriving DecidableEq, Inhabited

structure LogSettings where
  dir : Option String
  filter : String
  deriving DecidableEq, Inhabited

structure Settings where
  pass : PassSettings
  log : LogSettings
  tools : List ToolSpec
  deriving DecidableEq, Inhabited

def wordMax : Nat := UInt64.size - 1

namespace Policy

def ofJson? (j : Json) : Option Policy := j.variant? ofName?

def toJson (policy : Policy) : Json := .text policy.name

end Policy

namespace ToolSpec

def defaultBuildTimeout : Nat := 600000

def fieldNames : List String :=
  ["name", "candidates", "conflict_exits", "detect_markers", "build", "build_timeout_ms",
    "working_dir"]

def exitCode? (j : Json) : Option Int := j.int? Int32.minValue.toInt Int32.maxValue.toInt

def ofJson? (j : Json) : Option ToolSpec := do
  match ← j.fields? fieldNames with
  | [name, candidates, conflictExits, detectMarkers, build, buildTimeout, workingDir] =>
    return {
      name := ← Json.required? Json.text? name
      candidates := ← Json.required? (Json.list? (Json.list? Json.text?)) candidates
      conflictExits :=
        ← Json.withDefault? (Json.nullable? (Json.pair? exitCode? exitCode?)) none conflictExits
      detectMarkers := ← Json.withDefault? Json.bool? false detectMarkers
      build := ← Json.withDefault? (Json.nullable? (Json.list? Json.text?)) none build
      buildTimeout := ← Json.withDefault? (Json.nat? wordMax) defaultBuildTimeout buildTimeout
      workingDir := ← Json.withDefault? (Json.nullable? Json.text?) none workingDir }
  | _ => none

def toJson (spec : ToolSpec) : Json :=
  .record [
    ("name", .text spec.name),
    ("candidates", .array (spec.candidates.map Json.texts)),
    ("conflict_exits",
      Json.nullable (fun range => .array [.int range.1, .int range.2]) spec.conflictExits),
    ("detect_markers", .bool spec.detectMarkers),
    ("build", Json.nullable Json.texts spec.build),
    ("build_timeout_ms", .nat spec.buildTimeout),
    ("working_dir", Json.nullable Json.text spec.workingDir)]

def simple (name : String) (candidates : List (List String)) : ToolSpec where
  name := name
  candidates := candidates
  conflictExits := none
  detectMarkers := false
  build := none
  buildTimeout := defaultBuildTimeout
  workingDir := none

def diff3 : ToolSpec :=
  { simple "diff3" [["git", "merge-file", "-p", "\x7bleft\x7d", "\x7bbase\x7d", "\x7bright\x7d"]]
    with conflictExits := some (1, 127) }

def mergiraf : ToolSpec :=
  { simple "mergiraf" [["target/debug/mergiraf", "merge"], ["mergiraf", "merge"]]
    with conflictExits := some (1, 1), detectMarkers := true }

def mergirafSemi : ToolSpec :=
  { simple "mergiraf-semi" [["mergiraf", "merge", "--semistructured=diff3"]]
    with conflictExits := some (1, 1), detectMarkers := true }

def defaults : List ToolSpec := [diff3, mergiraf, mergirafSemi]

end ToolSpec

namespace PassSettings

def default : PassSettings := ⟨5000, 1, .separate, none⟩

def ofJson? (j : Json) : Option PassSettings := do
  match ← j.fields? ["timeout_ms", "jobs", "wrong_merge", "scratch_dir"] with
  | [timeout, jobs, policy, scratchDir] =>
    return {
      timeout := ← Json.withDefault? (Json.nat? wordMax) default.timeout timeout
      jobs := ← Json.withDefault? (Json.nat? wordMax) default.jobs jobs
      policy := ← Json.withDefault? Policy.ofJson? default.policy policy
      scratchDir := ← Json.withDefault? (Json.nullable? Json.text?) none scratchDir }
  | _ => none

def toJson (s : PassSettings) : Json :=
  .record ([
    ("timeout_ms", .nat s.timeout),
    ("jobs", .nat s.jobs),
    ("wrong_merge", s.policy.toJson)]
    ++ s.scratchDir.toList.map fun dir => ("scratch_dir", Json.text dir))

end PassSettings

namespace LogSettings

def default : LogSettings := ⟨none, "info"⟩

def ofJson? (j : Json) : Option LogSettings := do
  match ← j.fields? ["dir", "filter"] with
  | [dir, filter] =>
    return {
      dir := ← Json.withDefault? (Json.nullable? Json.text?) none dir
      filter := ← Json.withDefault? Json.text? default.filter filter }
  | _ => none

def toJson (s : LogSettings) : Json :=
  .record [("dir", Json.nullable Json.text s.dir), ("filter", .text s.filter)]

end LogSettings

namespace Settings

def default : Settings := ⟨.default, .default, ToolSpec.defaults⟩

def ofJson? (j : Json) : Option Settings := do
  match ← j.fields? ["harness", "logging", "strategies"] with
  | [pass, log, tools] =>
    return {
      pass := ← Json.withDefault? PassSettings.ofJson? default.pass pass
      log := ← Json.withDefault? LogSettings.ofJson? default.log log
      tools := ← Json.withDefault? (Json.list? ToolSpec.ofJson?) default.tools tools }
  | _ => none

def toJson (s : Settings) : Json :=
  .record [
    ("harness", s.pass.toJson),
    ("logging", s.log.toJson),
    ("strategies", .array (s.tools.map ToolSpec.toJson))]

def read? (text : String) : Option Settings := (Json.read? text).bind ofJson?

def write (s : Settings) : String := s.toJson.pretty

/-- The configured tools among `only`, in the order of the settings, or all of them if `only` is
empty. Names that are not configured are refused. -/
def select (s : Settings) (only : List String) : Except (List String) (List ToolSpec) :=
  match only.filter fun name => s.tools.all fun tool => tool.name != name with
  | [] => .ok (s.tools.filter fun tool => only.isEmpty || only.contains tool.name)
  | unknown => .error unknown

end Settings
end MergeTrial
