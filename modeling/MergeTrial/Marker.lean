/-! Conflict markers: seven characters at the start of a line. -/

namespace MergeTrial.Marker

def all : List String := ["<<<<<<<", "|||||||", "=======", ">>>>>>>"]

def opens (line : List Char) : Bool := all.any fun marker => marker.toList.isPrefixOf line

/-- Whether some line is as asked, in a text whose first line has begun with `start`, the last
character first. A line feed ends a line, and with it a carriage return before it. -/
def anyLine (p : List Char → Bool) (start : List Char) : List Char → Bool
  | [] => !start.isEmpty && p start.reverse
  | '\r' :: '\n' :: rest => p start.reverse || anyLine p [] rest
  | '\n' :: rest => p start.reverse || anyLine p [] rest
  | c :: rest => anyLine p (c :: start) rest

def occursIn (text : String) : Bool := anyLine opens [] text.toList

end MergeTrial.Marker
