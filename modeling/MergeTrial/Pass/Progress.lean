import MergeTrial.Pass.Evaluation

/-! What a pass collects on its way, and how an evaluation is put together from it. The cells of
the plan are numbered row by row; runs arrive under the numbers of their cells in any order. -/

namespace MergeTrial.Pass

/-- A strategy under trial: whether it is there, and how to invoke it. -/
structure Entrant (m : Type → Type) where
  name : String
  available : Bool
  call : Scenario → m Reply

def unavailable {m : Type → Type} (entrants : List (Entrant m)) : NameSet :=
  .ofList ((entrants.filter fun entrant => !entrant.available).map (·.name))

structure Progress where
  -- the runs so far, under the numbers of their cells
  finished : List (Nat × Run)
  spawned : List Nat
  evaluated : Nat
  cancelled : Bool
  deriving DecidableEq, Inhabited

namespace Progress

def empty : Progress := ⟨[], [], 0, false⟩

def finish (p : Progress) (cell : Nat) (run : Run) : Progress :=
  { p with finished := p.finished ++ [(cell, run)] }

def spawn (p : Progress) (cell : Nat) : Progress := { p with spawned := p.spawned ++ [cell] }

def join (p : Progress) (cell : Nat) : Option Run → Progress
  | some run => p.finish cell run
  | none => p

def lost (p : Progress) : List Nat :=
  p.spawned.filter fun cell => !(p.finished.map Prod.fst).contains cell

@[simp] theorem evaluated_join (p : Progress) (cell : Nat) (run : Option Run) :
    (p.join cell run).evaluated = p.evaluated := by cases run <;> rfl

@[simp] theorem cancelled_join (p : Progress) (cell : Nat) (run : Option Run) :
    (p.join cell run).cancelled = p.cancelled := by cases run <;> rfl

end Progress

def elementAt {α : Type} (xs : List α) (i : Nat) : Outcome α :=
  match xs[i]? with
  | some x => .ok x
  | none => .error (.breakdown "index out of bounds")

def lostRun (corpus : Corpus) (names : List String) (cell : Nat) : Outcome (Nat × Run) := do
  let scenario ← elementAt corpus.scenarios (cell / names.length)
  let strategy ← elementAt names (cell % names.length)
  return (cell, .ofOutput scenario strategy aborted)

def classifyCell (policy : Policy) (corpus : Corpus) (width : Nat) (entry : Nat × Run) :
    Outcome Classification := do
  let scenario ← elementAt corpus.scenarios (entry.1 / width)
  Classification.ofRun policy scenario entry.2

/-- What a pass of strategies with these names produced. Runs of invocations that broke down are
added, and all runs are put into the order of the plan. -/
def assemble (policy : Policy) (corpus : Corpus) (names : List String) (absent : NameSet)
    (p : Progress) : Outcome Evaluation := do
  let lost ← p.lost.mapM (lostRun corpus names)
  let entries := (p.finished ++ lost).mergeSort fun a b => a.1 ≤ b.1
  let classifications ← entries.mapM (classifyCell policy corpus names.length)
  return {
    runs := entries.map Prod.snd
    classifications := classifications
    unavailable := names.filter (· ∈ absent)
    cancelled := p.cancelled
    evaluated := p.evaluated }

end MergeTrial.Pass
