import MergeTrial.Tool.Arguments

/-! Simultaneous substitution of placeholders: only those that the argument itself has. -/

namespace MergeTrial.Placeholder

def leading? (paths : StagedPaths) (cs : List Char) : Option (List Char × Nat) :=
  ([(base, paths.base), (left, paths.left), (right, paths.right)].find? fun entry =>
    entry.1.isPrefixOf cs).map fun entry => (entry.2.toList, entry.1.length)

/-- Replaces all placeholders at once; `skip` characters belong to one already replaced. -/
def substituteFrom (paths : StagedPaths) : Nat → List Char → List Char
  | _, [] => []
  | skip + 1, _ :: rest => substituteFrom paths skip rest
  | 0, c :: rest =>
    match leading? paths (c :: rest) with
    | some (path, length) => path ++ substituteFrom paths (length - 1) rest
    | none => c :: substituteFrom paths 0 rest

def substitute (paths : StagedPaths) (arg : String) : String :=
  String.ofList (substituteFrom paths 0 arg.toList)

end MergeTrial.Placeholder
