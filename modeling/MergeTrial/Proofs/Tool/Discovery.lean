import MergeTrial.Proofs.Tool.Accounts

/-! Discovery takes place once. The first call of a tool walks the candidates, builds the tool if
that is called for and walks them again if the build succeeds; every call, that one included, is
answered from what came of it, whatever has happened to the machine since. -/

namespace MergeTrial

def Ending.succeeded : Ending → Bool
  | .exited code _ _ => code == 0
  | .refused _ | .timedOut | .signalled .. => false

namespace ToolSpec

theorem resolveCandidate_eq_some_iff {machine : Machine} {spec : ToolSpec}
    {candidate : List String} {r : Resolved} :
    spec.resolveCandidate machine candidate = some r ↔ ∃ program, candidate = program :: r.args ∧
      machine.locate (Bytes.ofString program) spec.workingPath = some r.program := by
  cases candidate with
  | nil => exact ⟨nofun, nofun⟩
  | cons program args =>
    rw [resolveCandidate, Option.map_eq_some_iff]
    constructor
    · rintro ⟨path, hpath, rfl⟩
      exact ⟨program, rfl, hpath⟩
    · rintro ⟨_, hcandidate, hpath⟩
      obtain ⟨rfl, rfl⟩ := List.cons.inj hcandidate
      exact ⟨r.program, hpath, rfl⟩

theorem resolveCandidate_eq_none_iff {machine : Machine} {spec : ToolSpec}
    {candidate : List String} : spec.resolveCandidate machine candidate = none ↔
      ∀ program args, candidate = program :: args →
        machine.locate (Bytes.ofString program) spec.workingPath = none := by
  cases candidate with
  | nil => exact iff_of_true rfl nofun
  | cons program args =>
    rw [resolveCandidate, Option.map_eq_none_iff]
    constructor
    · intro hnone _ _ hcandidate
      obtain ⟨rfl, rfl⟩ := List.cons.inj hcandidate
      exact hnone
    · exact fun h => h program args rfl

theorem findCandidate_eq_some_iff {machine : Machine} {spec : ToolSpec} {r : Resolved} :
    spec.findCandidate machine = some r ↔ ∃ before program after,
      spec.candidates = before ++ (program :: r.args) :: after ∧
      machine.locate (Bytes.ofString program) spec.workingPath = some r.program ∧
      ∀ earlier args, earlier :: args ∈ before →
        machine.locate (Bytes.ofString earlier) spec.workingPath = none := by
  rw [findCandidate, List.findSome?_eq_some_iff]
  constructor
  · rintro ⟨before, candidate, after, hcandidates, hfound, hbefore⟩
    obtain ⟨program, rfl, hpath⟩ := resolveCandidate_eq_some_iff.1 hfound
    refine ⟨before, program, after, hcandidates, hpath, fun earlier args hmem => ?_⟩
    exact resolveCandidate_eq_none_iff.1 (hbefore _ hmem) earlier args rfl
  · rintro ⟨before, program, after, hcandidates, hpath, hbefore⟩
    refine ⟨before, _, after, hcandidates,
      resolveCandidate_eq_some_iff.2 ⟨program, rfl, hpath⟩, ?_⟩
    intro candidate hmem
    refine resolveCandidate_eq_none_iff.2 fun earlier args hcandidate => ?_
    exact hbefore earlier args (hcandidate ▸ hmem)

/-- The process that builds the tool, if there is a command for that. -/
def buildLaunch? (spec : ToolSpec) : Option Launch :=
  match spec.build with
  | some (program :: args) =>
    some ⟨Bytes.ofString program, args.map Bytes.ofString, spec.workingPath, spec.buildTimeout⟩
  | some [] | none => none

variable {m : Type → Type} [Monad m]

def walkNoting (spec : ToolSpec) : StateT Machine (StateT (List Deed) m) (Option Resolved) := do
  Deed.walk.note
  return spec.findCandidate (← get)

def discoverNoting (launch : Launcher m) (spec : ToolSpec) :
    StateT Machine (StateT (List Deed) m) (Discovery Resolved) :=
  discoverWith spec.walkNoting (spec.build.map (spec.runBuild launch.noting))

/-- The account of a discovery. -/
def discovery (launch : Launcher m) (spec : ToolSpec) :
    StateT Machine m (Discovery Resolved × List Deed) := do
  match spec.findCandidate (← get), spec.buildLaunch? with
  | some found, _ => return (⟨none, some found⟩, [.walk])
  | none, none => return (⟨spec.build.map fun _ => false, none⟩, [.walk])
  | none, some build =>
    let ending ← launch build
    if ending.succeeded then
      return (⟨some true, spec.findCandidate (← get)⟩, [.walk, .launch build, .walk])
    else return (⟨some false, none⟩, [.walk, .launch build])

variable [LawfulMonad m]

theorem run_runBuild (launch : Launcher m) (spec : ToolSpec) (program : String)
    (args : List String) (machine : Machine) :
    (spec.runBuild launch (program :: args)).run machine =
      (fun ended => (ended.1.succeeded, ended.2)) <$>
        (launch ⟨Bytes.ofString program, args.map Bytes.ofString, spec.workingPath,
          spec.buildTimeout⟩).run machine := by
  rw [runBuild, StateT.run_bind, map_eq_pure_bind]
  refine bind_congr fun ended => ?_
  obtain ⟨ending, after⟩ := ended
  cases ending <;> rfl

theorem run_walkNoting (spec : ToolSpec) (machine : Machine) (notes : List Deed) :
    ((spec.walkNoting (m := m)).run machine).run notes =
      pure ((spec.findCandidate machine, machine), notes ++ [.walk]) := by
  simp [walkNoting, Deed.run_note]

theorem run_discovery (launch : Launcher m) (spec : ToolSpec) (machine : Machine) :
    (spec.discovery launch).run machine =
      match spec.findCandidate machine, spec.buildLaunch? with
      | some found, _ => pure ((⟨none, some found⟩, [.walk]), machine)
      | none, none => pure ((⟨spec.build.map fun _ => false, none⟩, [.walk]), machine)
      | none, some build => do
        let (ending, after) ← (launch build).run machine
        return if ending.succeeded then
            ((⟨some true, spec.findCandidate after⟩, [.walk, .launch build, .walk]), after)
          else ((⟨some false, none⟩, [.walk, .launch build]), after) := by
  unfold discovery
  simp only [StateT.run_bind, StateT.run_get, pure_bind]
  cases spec.findCandidate machine with
  | some found => rfl
  | none =>
    cases spec.buildLaunch? with
    | none => rfl
    | some build =>
      simp only [StateT.run_bind]
      refine bind_congr fun ended => ?_
      cases ended.1.succeeded <;> simp

theorem accounts_discover (launch : Launcher m) (spec : ToolSpec) :
    Accounts (spec.discovery launch) (spec.discover launch) (spec.discoverNoting launch) := by
  constructor
  case plain_eq =>
    refine StateT.ext fun machine => ?_
    rw [StateT.run_map, run_discovery, discover, discoverWith, buildLaunch?]
    simp only [StateT.run_bind, StateT.run_get, pure_bind, StateT.run_pure]
    cases spec.findCandidate machine with
    | some found => simp
    | none =>
      cases spec.build with
      | none => simp
      | some command =>
        cases command with
        | nil => simp [runBuild]
        | cons program args =>
          simp only [Option.map_some]
          rw [StateT.run_bind, run_runBuild, bind_map_left, map_bind]
          refine bind_congr fun ended => ?_
          cases ended.1.succeeded <;> simp
  case run_noted =>
    intro machine notes
    rw [run_discovery, discoverNoting, discoverWith, StateT.run_bind, StateT.run_bind,
      run_walkNoting, pure_bind, buildLaunch?]
    cases spec.findCandidate machine with
    | some found => simp
    | none =>
      cases spec.build with
      | none => simp
      | some command =>
        cases command with
        | nil => simp [runBuild]
        | cons program args =>
          simp only [Option.map_some]
          rw [StateT.run_bind, run_runBuild, StateT.run_bind, StateT.run_map,
            (Accounts.launch launch _).run_noted, StateT.run_map, Functor.map_map, bind_map_left,
            bind_map_left, map_bind]
          refine bind_congr fun ended => ?_
          cases ended.1.succeeded with
          | false => simp
          | true => simp [run_walkNoting]

theorem machine_of_discover (launch : Launcher Id) (spec : ToolSpec) (machine : Machine) :
    ((spec.discover launch).run machine).2 =
      match spec.findCandidate machine, spec.buildLaunch? with
      | none, some build => ((launch build).run machine).2
      | _, _ => machine := by
  rw [(spec.accounts_discover launch).plain_eq, StateT.run_map, run_discovery]
  cases spec.findCandidate machine with
  | some found => rfl
  | none =>
    cases spec.buildLaunch? with
    | none => rfl
    | some build => exact (apply_ite Prod.snd _ _ _).trans (ite_self _)

end ToolSpec
namespace Tool

def Call.unanswered (name : String) : Call → Answer
  | .available => .available false
  | .program => .program none
  | .run _ => .output (.skipped (name ++ " could not be located"))

variable {m : Type → Type} [Monad m]

def process (tool : Tool) (r : Resolved) (paths : StagedPaths) : Launch :=
  ⟨r.program, (renderArgs r.args paths).map Bytes.ofString, tool.spec.workingPath, tool.timeout⟩

def outputOf (tool : Tool) (r : Resolved) : Except FileFault Ending → Output
  | .error fault => .failed ("failed to stage inputs: " ++ fault.message)
  | .ok ending => tool.spec.outcome r.program tool.timeout ending

/-- The account of a call once discovery has taken place: at most one process is started, and that
for a run if the program was found and the inputs are staged. -/
def answerFrom (launch : Launcher m) (tool : Tool) (d : Discovery Resolved) :
    Call → StateT Machine m (Answer × List Deed)
  | .available => return (.available d.found.isSome, [])
  | .program => return (.program (d.found.map (·.program)), [])
  | .run scenario =>
    match d.found with
    | none => return (.output (.skipped (tool.spec.name ++ " could not be located")), [])
    | some r => do
      let (ended, deeds) ← Staging.accountWithin tool.scratchRoot scenario fun paths =>
        (·, [.launch (tool.process r paths)]) <$> launch (tool.process r paths)
      return (.output (tool.outputOf r ended), deeds)

/-- The account of a session: one discovery, after the first change of the machine, and all calls by
what came of it. -/
def history (launch : Launcher m) (tool : Tool) :
    List (StateT Machine m Unit × Call) → StateT Machine m (List Answer × List Deed)
  | [] => return ([], [])
  | (change, call) :: rest => do
    change
    let (d, deeds) ← tool.spec.discovery launch
    let first ← tool.answerFrom launch d call
    let others ← rest.mapM fun (change, call) => do change; tool.answerFrom launch d call
    return (first.1 :: others.map Prod.fst, deeds ++ first.2 ++ others.flatMap Prod.snd)

def sessionNoting (launch : Launcher m) (tool : Tool)
    (calls : List (StateT Machine m Unit × Call)) : StateT Machine (StateT (List Deed) m) (List Answer) :=
  tool.sessionWith (fun spec => spec.discoverNoting launch) launch.noting
    (calls.map fun (change, call) => (unnoted change, call))

theorem answerFrom_of_not_found (launch : Launcher m) (tool : Tool) (built : Option Bool)
    (call : Call) : tool.answerFrom launch ⟨built, none⟩ call =
      pure (call.unanswered tool.spec.name, []) := by
  cases call <;> rfl

def answered (launch : Launcher m) (tool : Tool) (d : Discovery Resolved) :
    Call → StateT Machine m Answer
  | .available => return .available d.found.isSome
  | .program => return .program (d.found.map (·.program))
  | .run scenario =>
    match d.found with
    | none => return .output (.skipped (tool.spec.name ++ " could not be located"))
    | some r => return .output (← tool.runResolved launch r scenario)

variable [LawfulMonad m]

theorem runResolved_eq (launch : Launcher m) (tool : Tool) (r : Resolved) (scenario : Scenario) :
    tool.runResolved launch r scenario = tool.outputOf r <$>
      Staging.within tool.scratchRoot scenario fun paths => launch (tool.process r paths) := by
  rw [runResolved, map_eq_pure_bind]
  refine bind_congr fun ended => ?_
  cases ended <;> rfl

theorem accounts_answered (launch : Launcher m) (tool : Tool) (d : Discovery Resolved)
    (call : Call) : Accounts (tool.answerFrom launch d call) (tool.answered launch d call)
      (tool.answered launch.noting d call) := by
  cases call with
  | available => exact .pure _
  | program => exact .pure _
  | run scenario =>
    unfold answerFrom answered
    cases d.found with
    | none => exact .pure _
    | some r =>
      have hended := Staging.accounts_within tool.scratchRoot scenario fun paths =>
        .launch launch (tool.process r paths)
      simpa [runResolved_eq] using hended.map fun ended => Answer.output (tool.outputOf r ended)

section
variable (discover : ToolSpec → StateT Machine m (Discovery Resolved)) (launch : Launcher m)

theorem answer_of_discovered (tool : Tool) (d : Discovery Resolved) (call : Call) :
    answer discover launch { tool with discovery := some d } call =
      (·, { tool with discovery := some d }) <$> tool.answered launch d call := by
  cases call with
  | available => simp [answer, available, resolveWith, answered]
  | program => simp [answer, program?, resolveWith, answered]
  | run scenario =>
    cases hfound : d.found with
    | none => simp [answer, runWith, resolveWith, answered, hfound]
    | some resolved => simp [answer, runWith, resolveWith, answered, hfound, runResolved]

theorem answer_of_undiscovered {tool : Tool} (h : tool.discovery = none) (call : Call) :
    tool.answer discover launch call = (do
      let d ← discover tool.spec
      answer discover launch { tool with discovery := some d } call) := by
  cases call with
  | available => simp [answer, available, resolveWith, h]
  | program => simp [answer, program?, resolveWith, h]
  | run scenario => simp [answer, runWith, resolveWith, h, runResolved]

theorem session_of_discovered (tool : Tool) (d : Discovery Resolved)
    (calls : List (StateT Machine m Unit × Call)) :
    sessionWith discover launch { tool with discovery := some d } calls =
      calls.mapM (fun (change, call) => do change; tool.answered launch d call) := by
  induction calls with
  | nil => rfl
  | cons step rest ih =>
    obtain ⟨change, call⟩ := step
    rw [sessionWith, List.mapM_cons, bind_assoc]
    refine bind_congr fun _ => ?_
    rw [answer_of_discovered, bind_map_left]
    refine bind_congr fun a => ?_
    exact congrArg (· >>= fun answers => pure (a :: answers)) ih

theorem session_of_undiscovered {tool : Tool} (h : tool.discovery = none)
    (change : StateT Machine m Unit) (call : Call) (rest : List (StateT Machine m Unit × Call)) :
    tool.sessionWith discover launch ((change, call) :: rest) = (do
      change
      let d ← discover tool.spec
      let first ← tool.answered launch d call
      let others ← rest.mapM fun (change, call) => do change; tool.answered launch d call
      return first :: others) := by
  rw [sessionWith]
  refine bind_congr fun _ => ?_
  rw [answer_of_undiscovered discover launch h, bind_assoc]
  refine bind_congr fun d => ?_
  rw [answer_of_discovered, bind_map_left]
  refine bind_congr fun first => ?_
  exact congrArg (· >>= fun answers => pure (first :: answers))
    (session_of_discovered discover launch tool d rest)

end

theorem accounts_following (launch : Launcher m) (tool : Tool) (d : Discovery Resolved)
    (calls : List (StateT Machine m Unit × Call)) :
    Accounts ((fun made => (made.map Prod.fst, made.flatMap Prod.snd)) <$>
        calls.mapM fun (change, call) => do change; tool.answerFrom launch d call)
      (calls.mapM fun (change, call) => do change; tool.answered launch d call)
      ((calls.map fun (change, call) => (unnoted change, call)).mapM fun (change, call) => do
        change
        tool.answered launch.noting d call) := by
  rw [List.mapM_map]
  refine .mapM (fun step => ?_) calls
  simpa using (Accounts.unnoted step.1).bind fun _ => tool.accounts_answered launch d step.2

theorem accounts_session (launch : Launcher m) {tool : Tool} (h : tool.discovery = none)
    (calls : List (StateT Machine m Unit × Call)) :
    Accounts (tool.history launch calls) (tool.session launch calls)
      (tool.sessionNoting launch calls) := by
  cases calls with
  | nil => exact .pure []
  | cons step rest =>
    obtain ⟨change, call⟩ := step
    unfold session sessionNoting
    rw [List.map_cons, session_of_undiscovered _ _ h, session_of_undiscovered _ _ h]
    have hcalls := fun d => (tool.accounts_answered launch d call).bind fun first =>
      (tool.accounts_following launch d rest).map (first :: ·)
    have hfirst := (Accounts.unnoted change).bind fun _ =>
      (tool.spec.accounts_discover launch).bind hcalls
    simpa [history] using hfirst

/-- A tool is discovered by the first call and never again, and all calls are answered from what
that discovery found on the machine of that time: the first candidate that is there, before or after
a build. Each run starts that program, once its inputs are staged, and nothing else is started; if
there is none, no call does anything. -/
theorem session_discovers_once (launch : Launcher m) (spec : ToolSpec) (timeout : Nat)
    (scratchRoot : Option Path) :
    let tool := ofSpec spec timeout scratchRoot
    (∀ calls, Accounts (tool.history launch calls) (tool.session launch calls)
      (tool.sessionNoting launch calls)) ∧
    Accounts (spec.discovery launch) (spec.discover launch) (spec.discoverNoting launch) ∧
    (∀ machine r, spec.findCandidate machine = some r ↔ ∃ before program after,
      spec.candidates = before ++ (program :: r.args) :: after ∧
      machine.locate (Bytes.ofString program) spec.workingPath = some r.program ∧
      ∀ earlier args, earlier :: args ∈ before →
        machine.locate (Bytes.ofString earlier) spec.workingPath = none) ∧
    ∀ built call, tool.answerFrom launch ⟨built, none⟩ call =
      pure (call.unanswered spec.name, []) := by
  intro tool
  exact ⟨accounts_session launch rfl, spec.accounts_discover launch,
    fun _ _ => ToolSpec.findCandidate_eq_some_iff, answerFrom_of_not_found launch tool⟩

def onDemand : ToolSpec :=
  { ToolSpec.simple "onDemand" [[], ["absent"], ["./tool", "merge"]] with
    build := some ["make", "tool"] }

def emptyMachine : Machine :=
  ⟨.dir 0o755 [(Bytes.ofString "tmp", .dir 0o777 [])], [], none, 0o022, []⟩

def making (code : Int) : Launcher Id := fun process => do
  if process.program ≠ Bytes.ofString "make" then return .exited 0 (Bytes.ofString "merged") []
  if code = 0 then modify (·.put [Bytes.ofString "tool"] (some (.file [] 0o755)))
  return .exited code [] []

def losing : StateT Machine Id Unit := modify (·.put [Bytes.ofString "tool"] none)

/-- The tool is gone after the first call, and still it is the one that discovery found and that the
run starts. A build that fails is not made again. -/
theorem onDemand_discovers_once :
    let calls := [(pure (), .available), (losing, .program),
      (pure (), .run ⟨"S", .conflict, "a", "b", "c", none, some "txt"⟩)]
    let noted := fun code =>
      ((sessionNoting (making code) (ofSpec onDemand 100 none) calls).run emptyMachine).run []
    let make : Deed := .launch
      ⟨Bytes.ofString "make", [Bytes.ofString "tool"], none, onDemand.buildTimeout⟩
    (noted 0).1.1 = [.available true, .program (some (Bytes.ofString "./tool")),
      .output (.success "merged")] ∧
    (noted 0).2 = [.walk, make, .walk, .launch ⟨Bytes.ofString "./tool",
      ["merge", "/tmp/mergebench-000000/base.txt", "/tmp/mergebench-000000/left.txt",
        "/tmp/mergebench-000000/right.txt"].map Bytes.ofString, none, 100⟩] ∧
    (noted 2).1.1 = [.available false, .program none,
      .output (.skipped "onDemand could not be located")] ∧
    (noted 2).2 = [.walk, make] := by
  intro calls noted make
  have hnoted : ∀ code, noted code = (fun ended => ((ended.1.1, ended.2), ended.1.2))
      (((ofSpec onDemand 100 none).history (making code) calls).run emptyMachine) := fun code =>
    ((session_discovers_once (m := Id) (making code) onDemand 100 none).1 calls).run_noted ..
  rw [hnoted, hnoted]
  decide +kernel

end Tool
end MergeTrial
