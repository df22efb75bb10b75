import MergeTrial.CommandLine.Answer
import MergeTrial.FileTree.Listing
import MergeTrial.Report.RunId
import MergeTrial.Shell.Host
import MergeTrial.Shell.Launch

/-! The command `mergebench`. It takes a picture of the current directory, works on the picture,
and carries out the changes. Tools are scripts that the library's own shell can run. -/

namespace MergeTrial.Program

def modeOf (content : Bytes) : Nat :=
  if (Bytes.ofString "#!").isPrefixOf content then 0o755 else 0o644

partial def readEntries (dir : String) : IO (List (Bytes × Node)) := do
  let listed ← (← IO.FS.realPath dir).readDir
  listed.toList.mapM fun entry => do
    let name := Bytes.ofString entry.fileName
    if ← entry.path.isDir then
      return (name, .dir 0o755 (← readEntries entry.path.toString))
    else
      let content := (← IO.FS.readBinFile entry.path).data.toList
      return (name, .file content (modeOf content))

def everyone (allowed : Bool) : IO.AccessRight :=
  { read := true, write := false, execution := allowed }

def rights (mode : Nat) : IO.FileRight :=
  let allowed := mode &&& 0o111 != 0
  { user := { everyone allowed with write := true }
    group := everyone allowed
    other := everyone allowed }

def perform : Change → IO Unit
  | .put ⟨path, .dir⟩ => IO.FS.createDirAll (Bytes.display path)
  | .put ⟨path, .file content mode⟩ => do
    IO.FS.writeBinFile (Bytes.display path) ⟨content.toArray⟩
    IO.setAccessRights (Bytes.display path) (rights mode)
  | .remove ⟨path, .dir⟩ => IO.FS.removeDir (Bytes.display path)
  | .remove ⟨path, .file ..⟩ => IO.FS.removeFile (Bytes.display path)
  | .put ⟨_, .link _⟩ | .remove ⟨_, .link _⟩ => pure ()

def now : IO Moment := do
  let (_, path) ← IO.FS.createTempFile
  let modified := (← path.metadata).modified
  IO.FS.removeFile path
  return ⟨modified.sec, modified.nsec.toNat⟩

def surroundings : IO (CommandLine.Surroundings Id) := do
  return {
    launch := Machine.launch
    filter := ← IO.getEnv "MERGEBENCH_LOG"
    now := ← now
    runId := RunId.ofBytes (← IO.getRandomBytes RunId.length.toUSize).data.toList }

def currentMachine : IO Machine := do
  let dir ← IO.currentDir
  return .around (Bytes.ofString dir.toString) (← readEntries dir.toString)
    ((← IO.getEnv "PATH").map Bytes.ofString)

def listing (m : Machine) : List Listed :=
  match m.root.at? m.cwd with
  | some node => node.list []
  | none => []

def run (args : List String) : IO UInt32 := do
  let before ← currentMachine
  let (answer, after) := ((CommandLine.answer (← surroundings) args).run before).run
  (Change.between (listing before) (listing after)).forM perform
  IO.print answer.output
  IO.eprint answer.log
  match answer.fault with
  | some fault => IO.eprintln ("Error: " ++ fault.message)
  | none => pure ()
  if answer.code = 2 then
    IO.eprintln "Usage: mergebench [--config FILE] [--log-dir DIR] run|metrics|strategies|init ..."
  return answer.code.toUInt32

end MergeTrial.Program

def main (args : List String) : IO UInt32 := MergeTrial.Program.run args
