import MergeTrial.Pass.Progress

/-! Carrying out a pass in the order of its plan. The sweep looks for a signal to stop before each
scenario and hands out permits; invocations begin when it has to wait for one, and then those with
permits are carried out one after the other. So the sweep is ahead of the invocations by as many as
there are jobs. Strategies that could not be located are skipped without an invocation. -/

namespace MergeTrial.Pass
variable {m : Type → Type} [Monad m]

/-- An invocation that holds a permit and has not begun. -/
structure Due (m : Type → Type) where
  cell : Nat
  scenario : Scenario
  entrant : Entrant m

/-- What a sweep has collected, and the invocations that it is ahead of. -/
structure Lead (m : Type → Type) where
  progress : Progress
  due : List (Due m)

namespace Lead

def empty : Lead m := ⟨.empty, []⟩

def carryOutAll (timeout : Nat) : List (Due m) → Progress → m Progress
  | [], p => return p
  | due :: rest, p => do
    let reply ← due.entrant.call due.scenario
    carryOutAll timeout rest
      (p.join due.cell ((invoke timeout reply).map (.ofOutput due.scenario due.entrant.name)))

def catchUp (timeout : Nat) (lead : Lead m) : m (Lead m) := do
  return ⟨← carryOutAll timeout lead.due lead.progress, []⟩

def acquire (settings : PassSettings) (lead : Lead m) : m (Lead m) :=
  if lead.due.length < jobs settings then pure lead else lead.catchUp settings.timeout

def takeUp (settings : PassSettings) (absent : NameSet) (scenario : Scenario) (cell : Nat)
    (entrant : Entrant m) (lead : Lead m) : m (Lead m) := do
  if entrant.name ∈ absent then
    return { lead with
      progress := lead.progress.finish cell (.unavailable scenario entrant.name) }
  else
    let lead ← lead.acquire settings
    return ⟨lead.progress.spawn cell, lead.due ++ [⟨cell, scenario, entrant⟩]⟩

def sweepRow (settings : PassSettings) (absent : NameSet) (scenario : Scenario) :
    Nat → List (Entrant m) → Lead m → m (Lead m)
  | _, [], lead => return lead
  | cell, entrant :: rest, lead => do
    let lead ← lead.takeUp settings absent scenario cell entrant
    sweepRow settings absent scenario (cell + 1) rest lead

def stop (lead : Lead m) : Lead m :=
  { lead with progress := { lead.progress with cancelled := true } }

def count (lead : Lead m) : Lead m :=
  { lead with progress := { lead.progress with evaluated := lead.progress.evaluated + 1 } }

/-- Goes through the scenarios, numbered from `row` on, until there is a signal. -/
def sweep (settings : PassSettings) (signalled : m Bool) (entrants : List (Entrant m)) :
    Nat → List Scenario → Lead m → m (Lead m)
  | _, [], lead => return lead
  | row, scenario :: rest, lead => do
    if ← signalled then return lead.stop
    else
      let lead ← sweepRow settings (unavailable entrants) scenario (row * entrants.length)
        entrants lead.count
      sweep settings signalled entrants (row + 1) rest lead

end Lead

def evaluate (settings : PassSettings) (signalled : m Bool) (entrants : List (Entrant m))
    (corpus : Corpus) : m (Outcome Evaluation) := do
  let lead ← Lead.sweep settings signalled entrants 0 corpus.scenarios .empty
  let lead ← lead.catchUp settings.timeout
  return assemble settings.policy corpus (entrants.map (·.name)) (unavailable entrants)
    lead.progress

end MergeTrial.Pass
