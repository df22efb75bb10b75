/-! Columns of text: padding to a width in characters, and numbers with leading zeros. -/

namespace MergeTrial.Text

def blanks (n : Nat) : String := String.ofList (List.replicate n ' ')

def padEnd (width : Nat) (s : String) : String := s ++ blanks (width - s.length)

def padStart (width : Nat) (s : String) : String := blanks (width - s.length) ++ s

def zeroPadded (width n : Nat) : String :=
  let digits := toString n
  String.ofList (List.replicate (width - digits.length) '0') ++ digits

def rule (width : Nat) : String := String.ofList (List.replicate width '-')

def unlines (lines : List String) : String := String.join (lines.map (· ++ "\n"))

end MergeTrial.Text
