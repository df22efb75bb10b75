/-! The arguments of a tool: placeholders in them stand for the paths of the staged files. -/

namespace MergeTrial

structure StagedPaths where
  base : String
  left : String
  right : String

namespace Placeholder

def base : List Char := ['\x7b', 'b', 'a', 's', 'e', '\x7d']

def left : List Char := ['\x7b', 'l', 'e', 'f', 't', '\x7d']

def right : List Char := ['\x7b', 'r', 'i', 'g', 'h', 't', '\x7d']

def all : List (List Char) := [base, left, right]

def occurs (pattern : List Char) : List Char → Bool
  | [] => pattern.isEmpty
  | c :: rest => pattern.isPrefixOf (c :: rest) || occurs pattern rest

/-- Replaces the occurrences of a pattern from left to right; `skip` characters belong to one
already replaced. -/
def replaceFrom (pattern replacement : List Char) : Nat → List Char → List Char
  | _, [] => []
  | skip + 1, _ :: rest => replaceFrom pattern replacement skip rest
  | 0, c :: rest =>
    if pattern.isPrefixOf (c :: rest) then
      replacement ++ replaceFrom pattern replacement (pattern.length - 1) rest
    else c :: replaceFrom pattern replacement 0 rest

def replace (pattern replacement text : List Char) : List Char :=
  replaceFrom pattern replacement 0 text

/-- Replaces the placeholders one kind after the other, so that a later kind is also found in the
paths already inserted. -/
def expand (paths : StagedPaths) (arg : String) : String :=
  String.ofList (replace right paths.right.toList (replace left paths.left.toList
    (replace base paths.base.toList arg.toList)))

def isTemplate (arg : String) : Bool := all.any fun pattern => occurs pattern arg.toList

end Placeholder

def renderArgs (args : List String) (paths : StagedPaths) : List String :=
  if args.any Placeholder.isTemplate then args.map (Placeholder.expand paths)
  else args ++ [paths.base, paths.left, paths.right]

end MergeTrial
