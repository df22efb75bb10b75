import MergeTrial.Pass.Progress

/-! Passes with several invocations at a time. The sweep goes through the plan and waits for a
permit before each invocation; invocations begin and end on their own, and are joined once the sweep
is over. A schedule lists what happens, in order. -/

namespace MergeTrial.Pass

/-- What a pass is about: its settings, the registered strategies, the corpus. How a strategy
answers depends on the scenario alone. -/
structure Trial where
  settings : PassSettings
  registered : List (Entrant Id)
  corpus : Corpus

inductive Reception where
  | signal
  | empty
  | closed
  | lagged (missed : Nat)
  deriving DecidableEq

/-- The way by which signals to stop arrive. It keeps one signal; those before it are missed. -/
structure Channel where
  isOpen : Bool
  -- how many signals were sent and not received
  pending : Nat
  deriving DecidableEq

namespace Channel

def send (c : Channel) : Channel := { c with pending := c.pending + 1 }

def close (c : Channel) : Channel := { c with isOpen := false }

def receive (c : Channel) : Reception × Channel :=
  match c.pending with
  | 0 => (if c.isOpen then .empty else .closed, c)
  | 1 => (.signal, { c with pending := 0 })
  | missed + 2 => (.lagged (missed + 1), { c with pending := 1 })

end Channel

def Reception.stops : Reception → Bool
  | .signal | .lagged _ => true
  | .empty | .closed => false

inductive Sweep where
  | checkpoint (row : Nat)
  | cell (row column : Nat)
  | complete
  deriving DecidableEq

/-- How far an invocation has got; until it has ended it holds a permit. -/
inductive Phase where
  | ready
  | running (since : Nat)
  | ended (run : Option Run)
  deriving DecidableEq

structure Task where
  cell : Nat
  scenario : Scenario
  entrant : Entrant Id
  phase : Phase

namespace Task

def reply (task : Task) : Reply := task.entrant.call task.scenario

def run (timeout : Nat) (task : Task) : Option Run :=
  (invoke timeout task.reply).map (.ofOutput task.scenario task.entrant.name)

def duration (timeout : Nat) (task : Task) : Nat := min task.reply.delay (limit timeout)

def holdsPermit (task : Task) : Bool :=
  match task.phase with
  | .ready | .running _ => true
  | .ended _ => false

def isRunning (task : Task) : Bool :=
  match task.phase with
  | .running _ => true
  | .ready | .ended _ => false

def take? (cell : Nat) : List Task → Option (Task × List Task)
  | [] => none
  | task :: rest =>
    if task.cell = cell then some (task, rest)
    else (take? cell rest).map fun found => (found.1, task :: found.2)

end Task

structure State where
  sweep : Sweep
  clock : Nat
  permits : Nat
  -- the invocations that were not joined yet
  tasks : List Task
  -- the cells whose invocations have begun, in the order of their beginnings
  calls : List Nat
  progress : Progress
  channel : Option Channel

inductive Event where
  | advance
  | start (cell : Nat)
  | finish (cell : Nat)
  | join (cell : Nat)
  | wait (time : Nat)
  | send
  | close
  deriving DecidableEq

namespace Trial

def entrants (t : Trial) : List (Entrant Id) := distinct (·.name) t.registered

def names (t : Trial) : List String := t.entrants.map (·.name)

def begin (t : Trial) (channel : Option Channel) : Outcome State := do
  checkJobs t.settings
  return ⟨.checkpoint 0, 0, jobs t.settings, [], [], .empty, channel⟩

def check (t : Trial) (s : State) (row : Nat) : State :=
  if t.corpus.scenarios.length ≤ row then { s with sweep := .complete }
  else
    let received := s.channel.map Channel.receive
    let s := { s with channel := received.map Prod.snd }
    if (received.map fun r => r.1.stops).getD false then
      { s with sweep := .complete, progress := { s.progress with cancelled := true } }
    else
      { s with
        sweep := .cell row 0
        progress := { s.progress with evaluated := s.progress.evaluated + 1 } }

def enter (t : Trial) (s : State) (row column : Nat) : Option State :=
  let cell := row * t.entrants.length + column
  match t.corpus.scenarios[row]?, t.entrants[column]? with
  | some scenario, some entrant =>
    let s := { s with sweep := .cell row (column + 1) }
    if entrant.name ∈ unavailable t.entrants then
      some { s with progress := s.progress.finish cell (.unavailable scenario entrant.name) }
    else if s.permits = 0 then none
    else
      some { s with
        permits := s.permits - 1
        tasks := s.tasks ++ [⟨cell, scenario, entrant, .ready⟩]
        progress := s.progress.spawn cell }
  | _, _ => some { s with sweep := .checkpoint (row + 1) }

def start (s : State) (cell : Nat) : Option State :=
  match Task.take? cell s.tasks with
  | some (⟨_, scenario, entrant, .ready⟩, rest) =>
    some { s with
      tasks := rest ++ [⟨cell, scenario, entrant, .running s.clock⟩]
      calls := s.calls ++ [cell] }
  | _ => none

def finish (t : Trial) (s : State) (cell : Nat) : Option State :=
  match Task.take? cell s.tasks with
  | some (⟨_, scenario, entrant, .running since⟩, rest) =>
    let task : Task := ⟨cell, scenario, entrant, .running since⟩
    if since + task.duration t.settings.timeout ≤ s.clock then
      some { s with
        permits := s.permits + 1
        tasks := rest ++ [{ task with phase := .ended (task.run t.settings.timeout) }] }
    else none
  | _ => none

def join (s : State) (cell : Nat) : Option State :=
  match s.sweep, Task.take? cell s.tasks with
  | .complete, some (⟨_, _, _, .ended run⟩, rest) =>
    some { s with tasks := rest, progress := s.progress.join cell run }
  | _, _ => none

def step (t : Trial) (s : State) : Event → Option State
  | .advance =>
    match s.sweep with
    | .checkpoint row => some (t.check s row)
    | .cell row column => t.enter s row column
    | .complete => none
  | .start cell => start s cell
  | .finish cell => t.finish s cell
  | .join cell => join s cell
  | .wait time => some { s with clock := s.clock + time }
  | .send =>
    match s.channel with
    | some ⟨true, pending⟩ => some { s with channel := some (Channel.send ⟨true, pending⟩) }
    | _ => none
  | .close => some { s with channel := s.channel.map Channel.close }

def execute (t : Trial) (s : State) (schedule : List Event) : Option State :=
  schedule.foldlM t.step s

def Leads (t : Trial) (channel : Option Channel) (schedule : List Event) (s : State) : Prop :=
  ∃ first, t.begin channel = .ok first ∧ t.execute first schedule = some s

def Reachable (t : Trial) (channel : Option Channel) (s : State) : Prop :=
  ∃ schedule, t.Leads channel schedule s

end Trial

namespace State

def isComplete (s : State) : Bool := s.sweep == .complete && s.tasks.isEmpty

def result (s : State) (t : Trial) : Outcome Evaluation :=
  assemble t.settings.policy t.corpus t.names (unavailable t.entrants) s.progress

end State
end MergeTrial.Pass
