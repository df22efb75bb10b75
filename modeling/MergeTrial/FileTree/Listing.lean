import MergeTrial.FileTree.Machine

/-! Listings of all that is below a directory, and the changes between two of them. -/

namespace MergeTrial

/-- What stands at a path: a directory, a file with its contents and permission bits, or a link. -/
inductive Found where
  | dir
  | file (content : Bytes) (mode : Nat)
  | link (target : Path)
  deriving DecidableEq

structure Listed where
  path : Path
  found : Found
  deriving DecidableEq

namespace Node

def found? : Node → Option Found
  | .dir .. => some .dir
  | .file content mode => some (.file content mode)
  | .special (.link target) => some (.link target)
  | .special _ => none

mutual

def list (path : Path) : Node → List Listed
  | .dir _ entries => listEntries path entries
  | _ => []

def listEntries (path : Path) : List (Bytes × Node) → List Listed
  | [] => []
  | (name, node) :: rest =>
    let here := path.join name
    (node.found?.map fun found => ⟨here, found⟩).toList ++ list here node
      ++ listEntries path rest

end

end Node

namespace Machine

/-- Reads all that is below a directory, through links as well. Fails if something cannot be read
or is nested more deeply than `depth`. -/
def survey (m : Machine) (depth : Nat) (here : Path) (shown : Path) : Option (List Listed) :=
  match depth with
  | 0 => none
  | depth + 1 =>
    match m.node? here with
    | some (.dir mode entries) =>
      if !Right.read.isIn mode then none
      else do
        let parts ← entries.mapM fun entry => do
          let path := here.join entry.1
          let shown := shown.join entry.1
          match ← m.node? path with
          | .dir .. => return ⟨shown, .dir⟩ :: (← survey m depth path shown)
          | node => return [⟨shown, .file (← node.content.toOption) node.mode⟩]
        return parts.flatten
    | _ => none

def surveyDepth : Nat := 256

end Machine

inductive Change where
  | put (entry : Listed)
  | remove (entry : Listed)
  deriving DecidableEq

namespace Change

def between (before after : List Listed) : List Change :=
  (before.filter fun entry => after.all (·.path != entry.path)).reverse.map .remove
    ++ (after.filter fun entry => !before.contains entry).map .put

end Change
end MergeTrial
