import MergeTrial.Corpus.Basic
import MergeTrial.FileTree.Node
import MergeTrial.Records.Replay

/-! Corpora in directory trees: a directory for each scenario, and the labels in a record file
beside them. -/

namespace MergeTrial.Corpus

def labelFile : String := "scenarios.json"

namespace Artifact

def ofStem? (stem : Bytes) : Option Role :=
  if stem = Bytes.ofString "base" ∨ stem = Bytes.ofString "ancestor" then some .ancestor
  else if stem = Bytes.ofString "left" then some .left
  else if stem = Bytes.ofString "right" then some .right
  else if stem = Bytes.ofString "expected" then some .expected
  else none

def stem (name : Bytes) : Bytes := name.takeWhile (· != Path.dot)

def extension? (name : Bytes) : Option String := do
  guard name.text?.isSome
  match name.dropWhile (· != Path.dot) with
  | [] => none
  | _ :: rest => Bytes.text? rest

def role? (entry : Bytes × Node) : Option Role :=
  if entry.2.isFile then ofStem? (stem entry.1) else none

end Artifact

def shownPath (dir : Path) (entry : Bytes × Node) : String := Bytes.display (dir.join entry.1)

def listDir (path : Path) (dir : Node) : Outcome (List (Bytes × Node)) :=
  if dir.allows .read then .ok dir.entries
  else .error (.unreadable (Bytes.display path) .denied)

def firstClash (seen : List (Bytes × Node)) :
    List (Bytes × Node) → Option (Role × (Bytes × Node) × (Bytes × Node))
  | [] => none
  | entry :: rest =>
    match Artifact.role? entry with
    | none => firstClash seen rest
    | some role =>
      match seen.find? fun earlier => Artifact.role? earlier == some role with
      | some earlier => some (role, earlier, entry)
      | none => firstClash (entry :: seen) rest

def required (scenario : String) (entries : List (Bytes × Node)) (role : Role) :
    Outcome (Bytes × Node) :=
  match entries.find? fun entry => Artifact.role? entry == some role with
  | some entry => .ok entry
  | none => .error (.missingArtifact scenario role.name)

def readArtifact (dir : Path) (entry : Bytes × Node) : Outcome String :=
  match entry.2.text with
  | .ok text => .ok text
  | .error cause => .error (.unreadable (shownPath dir entry) cause)

def loadScenario (dir : Path) (name : String) (label : Label) (entries : List (Bytes × Node)) :
    Outcome Scenario := do
  match firstClash [] entries with
  | some (role, a, b) =>
    let a := shownPath dir a
    let b := shownPath dir b
    throw (if b < a then .repeatedArtifact name role b a else .repeatedArtifact name role a b)
  | none => pure ()
  let ancestor ← required name entries .ancestor
  let left ← required name entries .left
  let right ← required name entries .right
  let expected := entries.find? fun entry => Artifact.role? entry == some Role.expected
  return {
    name := name
    label := label
    ancestor := ← readArtifact dir ancestor
    left := ← readArtifact dir left
    right := ← readArtifact dir right
    expected := ← expected.mapM (readArtifact dir)
    extension := Artifact.extension? ancestor.1 }

def isHidden (name : Bytes) : Bool := name.head? == some Path.dot

def scenarioDirs (entries : List (Bytes × Node)) : List (Bytes × Node) :=
  (entries.filter fun entry => entry.2.isDir && !isHidden entry.1).mergeSort
    fun a b => decide (a.1 ≤ b.1)

def labelOf (labels : RecordFile) (name : String) : Outcome Label :=
  match labels.get? name with
  | some record => record.label name
  | none => .error (.missingLabel name)

def loadDir (path : Path) (labels : RecordFile) (entry : Bytes × Node) : Outcome Scenario := do
  match entry.1.text? with
  | none => throw (.unreadableName (shownPath path entry))
  | some name =>
    let label ← labelOf labels name
    let dir := path.join entry.1
    let entries ← listDir dir entry.2
    -- nothing in a directory is known to be a file unless it may be searched
    loadScenario dir name label (if entry.2.allows .execute then entries else [])

def readLabels (path : Path) (root : Node) : Outcome RecordFile :=
  let file := path.join (Bytes.ofString labelFile)
  if !root.allows .execute then .error (.unreadable (Bytes.display file) .denied)
  else
    match root.child? (Bytes.ofString labelFile) with
    | none => .error (.unreadable (Bytes.display file) .missing)
    | some node =>
      match node.text with
      | .ok text => RecordFile.read (Bytes.display file) text
      | .error cause => .error (.unreadable (Bytes.display file) cause)

/-- Loads the corpus at a path, given what is there. Labels come first, then the directories in
ascending order, then labels without a directory. -/
def load (path : Path) : Option Node → Outcome Corpus
  | some (.dir mode entries) => do
    let root := Node.dir mode entries
    let labels ← readLabels path root
    let scenarios ← (scenarioDirs (← listDir path root)).mapM (loadDir path labels)
    match labels.keys.find? fun key => !(scenarios.map (·.name)).contains key with
    | some key => throw (.orphanLabel key)
    | none => ofScenarios scenarios
  | _ => .error (.corpusMissing (Bytes.display path))

end MergeTrial.Corpus
