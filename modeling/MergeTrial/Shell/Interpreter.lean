import MergeTrial.Shell.Raw

/-! The first line of a script, which names the program that reads the script. -/

namespace MergeTrial.Shell.Interpreter

def window : Nat := 256

def isNul (c : Char) : Bool := c == '\x00'

def isEnd (c : Char) : Bool := Raw.isBlank c || isNul c

def trimmed (line : Raw) : Raw := (line.reverse.dropWhile Raw.isBlank).reverse

def parts? (line : Raw) : Option (Raw × List Raw) :=
  let line := (trimmed line).dropWhile Raw.isBlank
  let program := line.takeWhile fun c => !isEnd c
  let option := match line.drop program.length with
    | '\x00' :: _ => []
    | rest => (rest.dropWhile Raw.isBlank).takeWhile fun c => !isNul c
  if line.isEmpty then none
  else some (program, if option.isEmpty then [] else [option])

/-- The interpreter of a file with this content and what it is told, if the file is a script. A
line whose end is out of sight counts only if the program's name ends before that. -/
def ofContent? (content : Bytes) : Option (Raw × List Raw) :=
  let seen := Raw.ofBytes (content.take window)
  match seen ++ List.replicate (window - seen.length) '\x00' with
  | '#' :: '!' :: rest =>
    let line := rest.takeWhile fun c => c != '\n' && !isNul c
    if rest[line.length]? == some '\n' then parts? line
    else if (rest.dropWhile Raw.isBlank).any isEnd then parts? rest.dropLast
    else none
  | _ => none

def isBinary (content : Bytes) : Bool :=
  let isStrange (b : UInt8) : Bool := b ≤ 8 || b == 127 || (28 ≤ b && b ≤ 31)
  ((content.take window).takeWhile (· != 10)).any isStrange

end MergeTrial.Shell.Interpreter
