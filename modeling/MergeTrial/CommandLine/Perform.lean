import MergeTrial.Artifacts
import MergeTrial.CommandLine.Action
import MergeTrial.CommandLine.Events
import MergeTrial.CommandLine.Request
import MergeTrial.Corpus.Load
import MergeTrial.Report.Json
import MergeTrial.Report.Text
import MergeTrial.Tool.Pass

/-! Carrying out what a command line asks for. -/

namespace MergeTrial.CommandLine

/-- What surrounds a command: how processes are started, the log filter from outside, the time,
and the name of this run. -/
structure Surroundings (m : Type → Type) where
  launch : Launcher m
  filter : Option String
  now : Moment
  runId : String

variable {m : Type → Type} [Monad m]

def readSettings (path : String) : Action m Settings := do
  match ← Action.readText (Bytes.ofString path) with
  | .error cause => throw (.file cause)
  | .ok text =>
    match Settings.read? text with
    | some settings => return settings
    | none => throw .malformedSettings

def settingsOrDefault (path : String) : Action m Settings := do
  match ← Action.node? (Bytes.ofString path) with
  | none => return .default
  | some _ => readSettings path

def readRecords (path : String) : Action m RecordFile := do
  match ← Action.readText (Bytes.ofString path) with
  | .error cause => throw (.unreadable path cause)
  | .ok text => Action.orFail (RecordFile.read path text)

def printReport (json : Bool) (summary : Summary) (metrics : Metrics)
    (classifications : List Classification) : Action m Unit :=
  if json then Action.sayLine (Report.toJson summary metrics classifications).pretty
  else Action.say (Report.render summary metrics)

def planLine (pair : String × String) : String :=
  "  " ++ Text.padEnd 40 pair.1 ++ " " ++ pair.2

def printPlan (corpus : Corpus) (tools : List Tool) : Action m Unit := do
  let names := tools.map (·.spec.name)
  Action.sayLine ("Would run " ++ toString names.length ++ " strategies over "
    ++ toString corpus.size ++ " scenarios:")
  (Pass.plan corpus.names names).forM fun pair => Action.sayLine (planLine pair)

namespace RunRequest

def adjust (request : RunRequest) (s : PassSettings) : PassSettings :=
  { s with
    jobs := request.jobs.getD s.jobs
    timeout := request.timeout.getD s.timeout
    policy := request.policy.getD s.policy }

def loadCorpus (request : RunRequest) : Action m Corpus := do
  let path := Bytes.ofString request.corpus
  let corpus ← Action.orFail (Corpus.load path (← Action.node? path))
  Action.log (Events.loaded corpus.size)
  return corpus

def selectTools (request : RunRequest) (settings : Settings) : Action m (List Tool) := do
  match settings.select request.only with
  | .error names => throw (.unknownStrategies names)
  | .ok specs =>
    let tools := Tool.ofSettings settings.pass specs
    Action.logAll (Events.repeated tools)
    return Tool.distinct tools

def evaluate (surroundings : Surroundings m) (settings : PassSettings) (tools : List Tool)
    (corpus : Corpus) : Action m Evaluation := do
  let within := [Events.spanOf surroundings.runId]
  Action.log Events.starting
  let tools ← Action.onMachine (Tool.discoverAll surroundings.launch tools)
  Action.logAll (tools.flatMap fun tool =>
    Events.discovery within tool ++ [Events.availability within tool])
  Action.orFail (Pass.checkJobs settings)
  let outcome ← Action.onMachine (Tool.evaluate surroundings.launch settings tools corpus)
  Action.logAll ((← Action.machine).strays.reverse.map Events.stray)
  let evaluation ← Action.orFail outcome
  Action.logAll (evaluation.runs.map (Events.run within))
  Action.log (Events.finished within)
  return evaluation

def writeResults (request : RunRequest) (corpus : Corpus) (evaluation : Evaluation) :
    Action m Unit := do
  match request.output with
  | none => pure ()
  | some path =>
    Action.onFiles (Machine.saveFile (Bytes.ofString path)
      (RecordFile.write (evaluation.toRecords corpus)))
    Action.log Events.resultsWritten
  match request.reportDir with
  | none => pure ()
  | some dir =>
    let count ← Action.onFiles (Artifacts.write (Bytes.ofString dir) corpus evaluation.runs)
    Action.log (Events.artifactsWritten count)

def perform (surroundings : Surroundings m) (settings : Settings) (request : RunRequest) :
    Action m Unit := do
  let settings := { settings with pass := request.adjust settings.pass }
  let corpus ← request.loadCorpus
  let tools ← request.selectTools settings
  if request.dryRun then printPlan corpus tools
  else
    let evaluation ← evaluate surroundings settings.pass tools corpus
    let metrics := Metrics.compute evaluation.classifications
    Action.logAll (Events.divergences metrics)
    request.writeResults corpus evaluation
    printReport request.json
      { source := request.corpus
        runId := some surroundings.runId
        generatedAt := surroundings.now
        scenarios := corpus.size
        evaluated := evaluation.evaluated
        cancelled := evaluation.cancelled
        unavailable := evaluation.unavailable
        policy := settings.pass.policy }
      metrics evaluation.classifications

end RunRequest

namespace MetricsRequest

def perform (surroundings : Surroundings m) (settings : Settings) (request : MetricsRequest) :
    Action m Unit := do
  let policy := request.policy.getD settings.pass.policy
  let records ← readRecords request.results
  let classifications ← Action.orFail (RecordFile.classify policy records)
  let metrics := Metrics.compute classifications
  Action.logAll (Events.divergences metrics)
  printReport request.json
    { source := request.results
      runId := none
      generatedAt := surroundings.now
      scenarios := records.size
      evaluated := records.size
      cancelled := false
      unavailable := []
      policy := policy }
    metrics classifications

end MetricsRequest

def toolLines (tool : Tool) : List String :=
  [Text.padEnd 16 tool.spec.name ++ (match tool.resolved? with
    | some resolved => " available (" ++ Bytes.display resolved.program ++ ")"
    | none => " not found")]
    ++ tool.spec.candidates.map (fun candidate => "  candidate: " ++ " ".intercalate candidate)
    ++ tool.spec.build.toList.map fun build => "  build:     " ++ " ".intercalate build

def listTools (launch : Launcher m) (settings : Settings) : Action m Unit := do
  Action.say "Configured strategies\n=====================\n\n"
  let tools := Tool.ofSettings settings.pass settings.tools
  (tools : List Tool).forM fun tool => do
    let (_, tool) ← Action.onMachine (tool.resolve launch)
    Action.logAll (Events.discovery [] tool)
    Action.say (Text.unlines (toolLines tool))

def writeDefaults (path : String) (force : Bool) : Action m Unit := do
  if (← Action.node? (Bytes.ofString path)).isSome && !force then throw (.settingsExist path)
  Action.onFiles (Machine.saveFile (Bytes.ofString path) Settings.default.write)
  Action.sayLine ("Default settings written to " ++ path)

def Command.perform (surroundings : Surroundings m) (config : String) (settings : Settings) :
    Command → Action m Unit
  | .run request => request.perform surroundings settings
  | .metrics request => request.perform surroundings settings
  | .strategies => listTools surroundings.launch settings
  | .init force => writeDefaults config force

end MergeTrial.CommandLine
