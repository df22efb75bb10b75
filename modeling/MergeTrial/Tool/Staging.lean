import MergeTrial.Scenario
import MergeTrial.FileTree.Machine
import MergeTrial.Text.Column
import MergeTrial.Tool.Arguments

/-! Private copies of a scenario's inputs for one run of a tool, in a fresh directory that is
removed afterwards. -/

namespace MergeTrial.Staging

def scratchName (n : Nat) : Bytes := Bytes.ofString ("mergebench-" ++ Text.zeroPadded 6 n)

def freshName (taken : List Bytes) : Bytes :=
  (((List.range (taken.length + 1)).map scratchName).find? fun name => !taken.contains name).getD
    (scratchName taken.length)

def systemScratch : Path := Bytes.ofString "/tmp"

structure Scratch where
  location : Location
  path : Path

def makeScratch (parent : Path) : FileAction Scratch := do
  let m ← get
  let parent := m.cwdPath.join parent
  match m.resolve parent with
  | .error fault => throw fault
  | .ok place =>
    match place.node with
    | some (.dir _ entries) =>
      let name := freshName (entries.map Prod.fst)
      let location := place.location ++ [name]
      if !m.mayChange location then throw .denied
      else
        set (m.put location (some (.dir (m.granted 0o700) [])))
        return ⟨location, parent.join name⟩
    | some _ => throw .notDirectory
    | none => throw .missing

def fileName (scenario : Scenario) (stem : String) : String :=
  match scenario.extension with
  | some extension => stem ++ "." ++ extension
  | none => stem

def filePath (scratch : Scratch) (scenario : Scenario) (stem : String) : Path :=
  scratch.path.join (Bytes.ofString (fileName scenario stem))

def paths (scratch : Scratch) (scenario : Scenario) : StagedPaths where
  base := Bytes.display (filePath scratch scenario "base")
  left := Bytes.display (filePath scratch scenario "left")
  right := Bytes.display (filePath scratch scenario "right")

def writeInputs (scratch : Scratch) (scenario : Scenario) : FileAction Unit := do
  Machine.writeFile (filePath scratch scenario "base") (Bytes.ofString scenario.ancestor)
  Machine.writeFile (filePath scratch scenario "left") (Bytes.ofString scenario.left)
  Machine.writeFile (filePath scratch scenario "right") (Bytes.ofString scenario.right)

def remove (scratch : Scratch) : StateM Machine Unit :=
  modify fun m =>
    if (m.root.at? scratch.location).any (·.isDir) then m.put scratch.location none
    else { m with strays := scratch.path :: m.strays }

def prepareRoot (root : Option Path) : FileAction Path := do
  match root with
  | some root =>
    Machine.makeDirs root
    return root
  | none => return systemScratch

/-- Stages the inputs, uses them and removes them, whether staging succeeds or not. -/
def within {m : Type → Type} [Monad m] {α : Type} (root : Option Path) (scenario : Scenario)
    (use : StagedPaths → StateT Machine m α) : StateT Machine m (Except FileFault α) := do
  match ← Machine.lift ((prepareRoot root).bind makeScratch).run with
  | .error fault => return .error fault
  | .ok scratch =>
    match ← Machine.lift (writeInputs scratch scenario).run with
    | .error fault =>
      Machine.lift (remove scratch)
      return .error fault
    | .ok () =>
      let result ← use (paths scratch scenario)
      Machine.lift (remove scratch)
      return .ok result

end MergeTrial.Staging
