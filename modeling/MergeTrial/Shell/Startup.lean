import MergeTrial.Shell.Execution

/-! The shell as a program: what its arguments ask for, and the variables that it starts with. -/

namespace MergeTrial.Shell.Startup
open Execution

def defaultPath : Raw := "/usr/local/sbin:/usr/local/bin:/usr/sbin:/usr/bin:/sbin:/bin".toList

def currentDir (m : Machine) (environment : List (Raw × Raw)) : Raw :=
  let actual := Raw.ofBytes m.cwdPath
  match environment.lookup "PWD".toList with
  | some dir =>
    let place := (m.resolve (Raw.toBytes dir)).toOption
    if dir.head? = some '/' ∧ place.any fun p => p.location == m.cwd then dir else actual
  | none => actual

def bindings (m : Machine) (process : Process) : List (Raw × Variable) :=
  let own : List (Raw × Raw) :=
    [("PATH".toList, defaultPath), ("PPID".toList, ['1']), ("PS1".toList, "$ ".toList), ("PS2".toList, "> ".toList),
      ("PS4".toList, "+ ".toList)]
  let given := process.environment.filter fun entry => Name.isName entry.1
  let fixed : List (Raw × Raw) := [("IFS".toList, " \t\n".toList), ("OPTIND".toList, ['1'])]
  let isExported (name : Raw) : Bool := (given.lookup name).isSome
  let plain := (own ++ given ++ fixed).foldl
    (fun vars entry => Session.putIn entry.1 ⟨some entry.2, isExported entry.1, false⟩ vars) []
  Session.putIn "PWD".toList ⟨some (currentDir m process.environment), true, false⟩ plain

def initial (m : Machine) (process : Process) (number : Nat) : Session where
  name := process.name
  params := []
  bindings := bindings m process
  functions := []
  aliases := []
  found := []
  options := []
  status := 0
  outputStatus := 0
  table := process.table
  traps := []
  process := number
  jobs := []
  line := 0
  command := none
  scopes := []
  documents := []
  documentCount := 0
  loops := 0
  calls := 0
  optionOffset := 0
  isSubshell := false

def setName (name : Raw) : Execution Unit := modifySession fun s => { s with name := name }

def setParams (params : List Raw) : Execution Unit :=
  modifySession fun s => { s with params := params }

def scriptText (path : Raw) : Execution Raw := do
  match ← openFile .input path with
  | .error fault =>
    failWith ("cannot open ".toList ++ path ++ Raw.ofString (": " ++ openFailure .input fault))
  | .ok stream =>
    match ← world (World.readStream stream) with
    | .ok text => return text
    | .error _ => return []

def inputText : Execution Raw := do
  match (← session).table.lookup 0 with
  | none => return []
  | some stream =>
    match ← world (World.readStream stream) with
    | .ok text => return text
    | .error _ => return []

def script (args : List Raw) : Execution Raw := do
  let read ← Builtin.readOptions true (args.length + 1) false args
  if read.hasScript then
    match read.rest with
    | [] => failWith "-c requires an argument".toList
    | [text] => return text
    | text :: name :: params =>
      setName name
      setParams params
      return text
  else
    let fromInput := (← session).hasOption 's'
    match read.rest with
    | [] =>
      Builtin.setOption 's' true
      inputText
    | name :: params =>
      if fromInput then
        setParams read.rest
        inputText
      else
        let text ← scriptText name
        setName name
        setParams params
        return text

def maxDepth : Nat := 2000

def shell (start : Starter) (process : Process) : StateM World Finish := do
  let number ← World.newProcess
  let w ← get
  let evaluator := evaluator start maxDepth
  let action : Execution Nat := do
    let text ← script process.args
    modifySession fun s => { s with line := 1 }
    evaluator.text (text.filter (· != '\x00'))
  let running : Running := ⟨initial w.machine process number, w⟩
  let (finish, after) := ((conclude evaluator action).run running).run
  set after.world
  return finish

end MergeTrial.Shell.Startup
