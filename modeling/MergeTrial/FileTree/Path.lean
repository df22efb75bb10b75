import MergeTrial.Text.Encoding

/-! Path texts: slashes between names, with no names resolved. -/

namespace MergeTrial

abbrev Path := Bytes

namespace Path

def slash : UInt8 := 47

def dot : UInt8 := 46

def colon : UInt8 := 58

def splitOn (sep : UInt8) : Bytes → List Bytes
  | [] => [[]]
  | b :: rest =>
    if b = sep then [] :: splitOn sep rest
    else match splitOn sep rest with
      | [] => [[b]]
      | first :: more => (b :: first) :: more

def segments (path : Path) : List Bytes := splitOn slash path

def isAbsolute (path : Path) : Bool := path.head? == some slash

def join (parent child : Path) : Path :=
  if isAbsolute child || parent.isEmpty then child
  else if parent.getLast? == some slash then parent ++ child
  else parent ++ slash :: child

def stepCount (path : Path) : Nat :=
  let named := (segments path).filter fun s => !s.isEmpty && s != [dot]
  named.length + (if (segments path).head? == some [dot] then 1 else 0)

def isExplicit (path : Path) : Bool := isAbsolute path || 1 < stepCount path

end Path
end MergeTrial
