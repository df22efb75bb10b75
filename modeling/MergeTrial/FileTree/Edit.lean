import MergeTrial.FileTree.Machine

/-! Changes of single entries of directories: making, removing, renaming and linking them. A link at
the end of a path is not followed. -/

namespace MergeTrial.Machine

def entry (m : Machine) (path : Path) : Except FileFault Node.Place := do
  let slashed := path.getLast? == some Path.slash && !(bare path).isEmpty
  if !slashed then m.resolveEntry path
  else
    let place ← m.resolve (bare path)
    match place.node with
    | some (.dir ..) | none => return place
    | some _ => throw .notDirectory

/-- Whether the user may change the permission bits of what is at a location: the system's files are
those in directories at the top that cannot be written to. -/
def owns (m : Machine) : Location → Bool
  | [] => false
  | top :: _ => (m.root.child? top).any fun node => node.allows .write

def makeDir (path : Path) (mode : Nat) : FileAction Unit := do
  let m ← get
  match m.resolveEntry (if (bare path).isEmpty then path else bare path) with
  | .error fault => throw fault
  | .ok place =>
    if place.node.isSome then throw .occupied
    else if !m.mayChange place.location then throw .denied
    else set (m.put place.location (some (.dir (m.granted mode) [])))

def removeFile (path : Path) : FileAction Unit := do
  let m ← get
  match m.entry path with
  | .error fault => throw fault
  | .ok ⟨location, node⟩ =>
    match node with
    | none => throw .missing
    | some node =>
      if !m.mayChange location then throw .denied
      else if node.isDir then throw .isDirectory
      else set (m.put location none)

def removeDir (path : Path) : FileAction Unit := do
  let m ← get
  match m.entry path with
  | .error fault => throw fault
  | .ok ⟨location, node⟩ =>
    match node with
    | none => throw .missing
    | some (.dir _ entries) =>
      if (Path.segments (bare path)).getLast? = some [Path.dot] then throw .invalid
      else if !entries.isEmpty then throw .notEmpty
      else if !m.mayChange location then throw .denied
      else set (m.put location none)
    | some _ => throw .notDirectory

def rename (source target : Path) : FileAction Unit := do
  let m ← get
  match m.entry source, m.entry target with
  | .error fault, _ | _, .error fault => throw fault
  | .ok ⟨first, node⟩, .ok ⟨second, old⟩ =>
    match node with
    | none => throw .missing
    | some node =>
      if !m.mayChange first || !m.mayChange second then throw .denied
      else if first = second then return ()
      else if first.isPrefixOf second then throw .invalid
      else
        match node.isDir, old with
        | true, some (.dir _ entries) => if !entries.isEmpty then throw .notEmpty
        | true, some _ => throw .notDirectory
        | false, some (.dir ..) => throw .isDirectory
        | false, none =>
          if target.getLast? = some Path.slash then throw .notDirectory
        | _, _ => pure ()
        set ((m.put first none).put second (some node))

def makeEntry (path : Path) (node : Node) : FileAction Unit := do
  let m ← get
  match m.entry path with
  | .error fault => throw fault
  | .ok place =>
    if place.node.isSome then throw .occupied
    else if !m.mayChange place.location then throw .denied
    else set (m.put place.location (some node))

def setMode (location : Location) (mode : Nat) : FileAction Unit := do
  let m ← get
  if !m.owns location then throw .notPermitted
  else
    match m.root.at? location with
    | some (.file content _) => set (m.put location (some (.file content mode)))
    | some (.dir _ entries) => set (m.put location (some (.dir mode entries)))
    | _ => pure ()

end MergeTrial.Machine
