import MergeTrial.CommandLine.Scan
import MergeTrial.Settings

/-! What a command line asks for. -/

namespace MergeTrial.CommandLine

structure RunRequest where
  corpus : String
  only : List String
  jobs : Option Nat
  timeout : Option Nat
  policy : Option Policy
  dryRun : Bool
  json : Bool
  output : Option String
  reportDir : Option String
  deriving DecidableEq

structure MetricsRequest where
  results : String
  policy : Option Policy
  json : Bool
  deriving DecidableEq

inductive Command where
  | run (request : RunRequest)
  | metrics (request : MetricsRequest)
  | strategies
  | init (force : Bool)
  deriving DecidableEq

structure Request where
  config : String
  logDir : Option String
  command : Command
  deriving DecidableEq

namespace Request

def path? (text : String) : Option String := if text.isEmpty then none else some text

def number? (text : String) : Option Nat :=
  let digits := match text.toList with
    | '+' :: rest => rest
    | cs => cs
  if digits.isEmpty || !digits.all Char.isDigit then none
  else
    let n := digits.foldl (fun n c => n * 10 + (c.toNat - 48)) 0
    if n ≤ wordMax then some n else none

def parsed? {α : Type} (s : Scanned) (name : String) (parse : String → Option α) :
    Option (Option α) := do
  match ← s.value? name with
  | none => return none
  | some text => return some (← parse text)

def frontGrammar : Grammar
  | "config" | "log-dir" => some true
  | _ => none

def runGrammar : Grammar
  | "strategy" | "jobs" | "timeout-ms" | "wrong-merge" | "output" | "report-dir" => some true
  | "dry-run" | "json" => some false
  | _ => none

def metricsGrammar : Grammar
  | "wrong-merge" => some true
  | "json" => some false
  | _ => none

def initGrammar : Grammar
  | "force" => some false
  | _ => none

def runRequest? (args : List String) : Option RunRequest := do
  let s ← scan runGrammar args
  match s.positionals with
  | [corpus] =>
    return {
      corpus := ← path? corpus
      only := s.values "strategy"
      jobs := ← parsed? s "jobs" number?
      timeout := ← parsed? s "timeout-ms" number?
      policy := ← parsed? s "wrong-merge" Policy.ofName?
      dryRun := ← s.flag? "dry-run"
      json := ← s.flag? "json"
      output := ← parsed? s "output" path?
      reportDir := ← parsed? s "report-dir" path? }
  | _ => none

def metricsRequest? (args : List String) : Option MetricsRequest := do
  let s ← scan metricsGrammar args
  match s.positionals with
  | [results] =>
    return {
      results := ← path? results
      policy := ← parsed? s "wrong-merge" Policy.ofName?
      json := ← s.flag? "json" }
  | _ => none

def force? (args : List String) : Option Bool := do
  let s ← scan initGrammar args
  guard s.positionals.isEmpty
  s.flag? "force"

def command? (name : String) (args : List String) : Option Command :=
  match name with
  | "run" => (runRequest? args).map .run
  | "metrics" => (metricsRequest? args).map .metrics
  | "strategies" => if scan (fun _ => none) args = some .empty then some .strategies else none
  | "init" => (force? args).map .init
  | _ => none

def defaultConfig : String := "mergebench.json"

/-- The request of a command line, if it is one: options for all commands, the command, and its
own arguments. -/
def ofArgs? (args : List String) : Option Request := do
  let (front, name, rest) ← scanFront frontGrammar args
  return {
    config := (← parsed? front "config" path?).getD defaultConfig
    logDir := ← parsed? front "log-dir" path?
    command := ← command? name rest }

end Request
end MergeTrial.CommandLine
