import MergeTrial.CommandLine.Perform

/-! The program as a whole: from the arguments to the exit code and what is shown. -/

namespace MergeTrial.CommandLine
variable {m : Type → Type} [Monad m]

/-- How a call of the program ended, what it printed and logged, and what stopped it, if anything
did. -/
structure Answer where
  code : Nat
  output : String
  log : String
  fault : Option Fault
  deriving DecidableEq

namespace Answer

def misuse : Answer := ⟨2, "", "", none⟩

def codeOf : Fault → Nat
  | .breakdown _ => 101
  | _ => 1

def ofOutcome (transcript : Transcript) : Outcome Unit → Answer
  | .ok () => ⟨0, transcript.output, transcript.log, none⟩
  | .error fault => ⟨codeOf fault, transcript.output, transcript.log, some fault⟩

end Answer

def logFile : String := "mergebench.log"

def openLog (dir : String) : Action m Path := do
  let path := Path.join (Bytes.ofString dir) (Bytes.ofString logFile)
  Action.onFiles (Machine.makeDirs (Bytes.ofString dir))
  match ← Action.onMachine (Machine.lift (Machine.appendFile path []).run) with
  | .ok () => return path
  | .error fault => throw (.breakdown ("failed to open the log: " ++ fault.message))

/-- Shows what was logged, and adds it to the log file if there is one. -/
def writeLog (filter : Log.Filter) (file : Option Path) : Action m Unit := do
  let text := Log.render filter (← get).events
  modify fun t => { t with log := text }
  file.forM fun path => do
    let _ ← Action.onMachine (Machine.lift (Machine.appendFile path (Bytes.ofString text)).run)

def conduct (surroundings : Surroundings m) (request : Request) : Action m Unit := do
  let settings ← settingsOrDefault request.config
  let file ← (request.logDir.or settings.log.dir).mapM openLog
  let outcome : Outcome Unit ←
    ExceptT.lift (request.command.perform surroundings request.config settings).run
  writeLog (Log.Filter.choose surroundings.filter settings.log.filter) file
  Action.orFail outcome

def answer (surroundings : Surroundings m) (args : List String) : StateT Machine m Answer := do
  match Request.ofArgs? args with
  | none => return .misuse
  | some request =>
    let (outcome, transcript) ← (conduct surroundings request).run.run .empty
    return .ofOutcome transcript outcome

end MergeTrial.CommandLine
