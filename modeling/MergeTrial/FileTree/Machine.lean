import MergeTrial.FileTree.Node

/-! The machine that the program runs on: its files, and what a process on it starts with, namely a
current directory, a search path and a mask for new files. What is done to it stays done when a
later step fails. -/

namespace MergeTrial

structure Machine where
  root : Node
  cwd : Location
  searchPath : Option Bytes
  -- the permission bits that new files and directories do not get
  mask : Nat
  -- the scratch directories that were gone when they were to be removed
  strays : List Path
  deriving Inhabited

abbrev FileAction (α : Type) := ExceptT FileFault (StateM Machine) α

namespace Machine

def lift {m : Type → Type} [Monad m] {α : Type} (action : StateM Machine α) :
    StateT Machine m α :=
  fun machine => pure (action.run machine).run

def resolve (m : Machine) (path : Path) : Except FileFault Node.Place :=
  m.root.resolve m.cwd path

def resolveEntry (m : Machine) (path : Path) : Except FileFault Node.Place :=
  m.root.resolveWith false m.cwd path

def open? (m : Machine) (path : Path) : Except FileFault Node := do
  match (← m.resolve path).node with
  | some node => return node
  | none => throw .missing

def node? (m : Machine) (path : Path) : Option Node := (m.open? path).toOption

def hasDir (m : Machine) (path : Path) : Bool := (m.node? path).any (·.isDir)

def hasExecutable (m : Machine) (path : Path) : Bool := (m.node? path).any (·.isExecutable)

def readText (m : Machine) (path : Path) : Except FileFault String := do (← m.open? path).text

def enter (m : Machine) : Option Path → Except FileFault Machine
  | none => .ok m
  | some dir => do
    let place ← m.resolve dir
    match place.node with
    | some (.dir mode _) =>
      if Right.execute.isIn mode then return { m with cwd := place.location } else throw .denied
    | some _ => throw .notDirectory
    | none => throw .missing

def pathOf (location : Location) : Path :=
  if location.isEmpty then [Path.slash] else location.flatMap (Path.slash :: ·)

def cwdPath (m : Machine) : Path := pathOf m.cwd

def put (m : Machine) (location : Location) (value : Option Node) : Machine :=
  { m with root := m.root.put value location }

def granted (m : Machine) (wanted : Nat) : Nat := wanted &&& (0o777 ^^^ m.mask)

def mayChange (m : Machine) (location : Location) : Bool :=
  match m.root.at? location.dropLast with
  | some (.dir mode _) => Right.write.isIn mode && Right.execute.isIn mode
  | _ => false

def bare (path : Path) : Path := (path.reverse.dropWhile (· == Path.slash)).reverse

/-- What writing goes to: a file where it is, with what it holds and its permission bits, or
something else. -/
inductive Opened where
  | file (location : Location) (content : Bytes) (mode : Nat)
  | special (special : Special)

/-- Opens a file for writing, which need not exist but for its directory. A path with a slash at its
end names no file. -/
def openForWriting (m : Machine) (path : Path) : Except FileFault Opened := do
  let slashed := path.getLast? == some Path.slash
  let place ← m.resolve (if slashed && !(bare path).isEmpty then bare path else path)
  if slashed then throw .isDirectory
  match place.node with
  | some (.file content mode) =>
    if Right.write.isIn mode then return .file place.location content mode else throw .denied
  | some (.special (.program _)) => throw .denied
  | some (.special .terminal) => throw .noDevice
  | some (.special special) => return .special special
  | some (.dir ..) => throw .isDirectory
  | none =>
    if m.mayChange place.location then return .file place.location [] (m.granted 0o666)
    else throw .denied

def feed (special : Special) (bytes : Bytes) : Except FileFault Unit :=
  if special = .full ∧ bytes ≠ [] then .error .noSpace else .ok ()

def rewrite (path : Path) (more : Bytes) (change : Bytes → Bytes) : FileAction Unit := do
  let m ← get
  match m.openForWriting path with
  | .ok (.file location content mode) =>
    set (m.put location (some (.file (change content) mode)))
  | .ok (.special special) => MonadExcept.ofExcept (feed special more)
  | .error fault => throw fault

def writeFile (path : Path) (content : Bytes) : FileAction Unit :=
  rewrite path content fun _ => content

def appendFile (path : Path) (more : Bytes) : FileAction Unit := rewrite path more (· ++ more)

def staysInPlace (segments : List Bytes) : Bool :=
  segments.contains [Path.dot] && segments.all fun s => s.isEmpty || s == [Path.dot]

/-- Makes the directories that the segments lead through, as far as they are missing. A missing
one that nothing but dots follow is refused. -/
def makeDirsFrom (here : Location) : List Bytes → FileAction Unit
  | [] => pure ()
  | segment :: rest => do
    if segment = [] ∨ segment = [Path.dot] then makeDirsFrom here rest
    else if segment = [Path.dot, Path.dot] then makeDirsFrom here.dropLast rest
    else if Node.maxName < segment.length then throw .nameTooLong
    else
      let m ← get
      match m.root.resolve here segment with
      | .error fault => throw fault
      | .ok ⟨next, none⟩ =>
        if staysInPlace rest then throw .missing
        else if !m.mayChange next then throw .denied
        else
          set (m.put next (some (.dir (m.granted 0o777) [])))
          makeDirsFrom next rest
      | .ok ⟨next, some (.dir ..)⟩ => makeDirsFrom next rest
      | .ok ⟨_, some _⟩ =>
        throw (if rest.all (·.isEmpty) then .occupied else .notDirectory)

def makeDirs (path : Path) : FileAction Unit := do
  let m ← get
  if path.contains 0 then throw .nulByte
  else if Node.maxPath < path.length then throw .nameTooLong
  else makeDirsFrom (if Path.isAbsolute path then [] else m.cwd) (Path.segments path)

def parent? (path : Path) : Option Path :=
  match (Path.segments path).reverse.dropWhile fun s => s.isEmpty || s == [Path.dot] with
  | [] => none
  | _ :: rest =>
    let above := rest.dropWhile fun s => s.isEmpty || s == [Path.dot]
    if above.isEmpty && Path.isAbsolute path then some [Path.slash]
    else some ((List.intersperse [Path.slash] above.reverse).flatten)

def saveFile (path : Path) (text : String) : FileAction Unit := do
  match parent? path with
  | some parent => makeDirs parent
  | none => pure ()
  writeFile path (Bytes.ofString text)

end Machine
end MergeTrial
