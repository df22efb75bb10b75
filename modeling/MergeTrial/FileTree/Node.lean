import MergeTrial.FileTree.Path
import MergeTrial.Fault

/-! Trees of files. A location is the list of names that lead to a node from the root; a path text
is resolved to one step by step, through directories that may be searched, and through links. -/

namespace MergeTrial

inductive Special where
  | program (name : String)
  | null
  | full
  | terminal
  | descriptor (number : Nat)
  | link (target : Path)
  deriving DecidableEq, Inhabited

/-- Files and directories have permission bits. The entries of a directory are in the order in
which it lists them. -/
inductive Node where
  | file (content : Bytes) (mode : Nat)
  | special (special : Special)
  | dir (mode : Nat) (entries : List (Bytes × Node))
  deriving Inhabited

abbrev Location := List Bytes

/-- The permission bits of the owner. The machine's user owns its own files; of the system's files
and directories, these bits say what is left to the user. -/
inductive Right where
  | read
  | write
  | execute
  deriving DecidableEq, Inhabited

namespace Right

def bit : Right → Nat
  | .read => 0o400
  | .write => 0o200
  | .execute => 0o100

def isIn (right : Right) (mode : Nat) : Bool := mode &&& right.bit != 0

end Right

namespace Node

def newDir : Node := .dir 0o755 []

def isDir : Node → Bool
  | .dir .. => true
  | _ => false

def isFile : Node → Bool
  | .file .. | .special (.program _) => true
  | _ => false

def mode : Node → Nat
  | .file _ mode | .dir mode _ => mode
  | .special (.program _) => 0o555
  | .special _ => 0o666

def allows (n : Node) (right : Right) : Bool := right.isIn n.mode

def isExecutable (n : Node) : Bool := n.isFile && n.mode &&& 0o111 != 0

def entries : Node → List (Bytes × Node)
  | .dir _ entries => entries
  | _ => []

def content : Node → Except FileFault Bytes
  | .file content mode => if Right.read.isIn mode then .ok content else .error .denied
  | .special .terminal => .error .noDevice
  | .special _ => .ok []
  | .dir .. => .error .isDirectory

def text (n : Node) : Except FileFault String := do
  match (← n.content).text? with
  | some text => return text
  | none => throw .notText

def child? (n : Node) (name : Bytes) : Option Node := n.entries.lookup name

def at? (n : Node) : Location → Option Node
  | [] => some n
  | name :: rest => (n.child? name).bind fun child => at? child rest

def putEntry (name : Bytes) (value : Option Node) : List (Bytes × Node) → List (Bytes × Node)
  | [] => (value.map fun n => (name, n)).toList
  | (key, node) :: rest =>
    if key = name then (value.map fun n => (name, n)).toList ++ rest
    else (key, node) :: putEntry name value rest

def put (value : Option Node) : Location → Node → Node
  | [], n => value.getD n
  | [name], .dir mode entries => .dir mode (putEntry name value entries)
  | name :: rest, .dir mode entries =>
    .dir mode (match entries.lookup name with
      | some child => putEntry name (some (put value rest child)) entries
      | none => entries)
  | _, n => n

/-- What a path text leads to: a location, and the node there unless only its parent exists. -/
structure Place where
  location : Location
  node : Option Node

def maxName : Nat := 255

def maxPath : Nat := 4095

def maxLinks : Nat := 40

/-- Follows the segments of a path from a location. A link is gone through by `jump`, except at the
end of the path if `follow` does not ask for that. -/
def walkUntilLink (root : Node) (follow : Bool)
    (jump : Location → List Bytes → Except FileFault Place) (here : Location) :
    List Bytes → Except FileFault Place
  | [] => .ok ⟨here, root.at? here⟩
  | segment :: rest =>
    match root.at? here with
    | none => .error .missing
    | some (.special (.link target)) =>
      jump (if Path.isAbsolute target then [] else here.dropLast)
        (Path.segments target ++ segment :: rest)
    | some (.dir mode entries) =>
      if segment = [] ∨ segment = [Path.dot] then walkUntilLink root follow jump here rest
      else if segment = [Path.dot, Path.dot] then
        walkUntilLink root follow jump here.dropLast rest
      else if maxName < segment.length then .error .nameTooLong
      else if !Right.execute.isIn mode then .error .denied
      else match entries.lookup segment, rest with
        | some (.special (.link target)), [] =>
          if follow then
            jump (if Path.isAbsolute target then [] else here) (Path.segments target)
          else .ok ⟨here ++ [segment], some (.special (.link target))⟩
        | _, _ => walkUntilLink root follow jump (here ++ [segment]) rest
    | some _ => .error .notDirectory

/-- Follows the segments of a path from a location through at most so many links. -/
def walk (root : Node) (follow : Bool) :
    Nat → Location → List Bytes → Except FileFault Place
  | 0 => fun _ _ => .error .tooManyLinks
  | links + 1 => walkUntilLink root follow (walk root follow links)

def resolveWith (root : Node) (follow : Bool) (cwd : Location) (path : Path) :
    Except FileFault Place :=
  if path = [] then .error .missing
  else if path.contains 0 then .error .nulByte
  else if maxPath < path.length then .error .nameTooLong
  else walk root follow (maxLinks + 1) (if Path.isAbsolute path then [] else cwd)
    (Path.segments path)

def resolve (root : Node) : Location → Path → Except FileFault Place := resolveWith root true

end Node
end MergeTrial
