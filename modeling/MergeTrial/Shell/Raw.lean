import MergeTrial.Text.Encoding

/-! Texts as processes see them: each character is one byte. -/

namespace MergeTrial.Shell

abbrev Raw := List Char

namespace Raw

def ofBytes (b : Bytes) : Raw := b.map fun byte => Char.ofNat byte.toNat

def toBytes (r : Raw) : Bytes := r.map fun c => c.toNat.toUInt8

def ofString (s : String) : Raw := ofBytes (Bytes.ofString s)

def ofNat (n : Nat) : Raw := (toString n).toList

def ofInt (n : Int) : Raw := n.repr.toList

def digitValue (c : Char) : Nat := c.toNat - 48

def ofDigits (digits : Raw) : Nat := digits.foldl (fun n c => n * 10 + digitValue c) 0

def nat? (r : Raw) : Option Nat :=
  if r.isEmpty || !r.all Char.isDigit then none else some (ofDigits r)

def int? : Raw → Option Int
  | '-' :: digits => (nat? digits).map fun n => -(n : Int)
  | '+' :: digits => (nat? digits).map fun n => (n : Int)
  | digits => (nat? digits).map fun n => (n : Int)

def octalValue? (c : Char) : Option Nat :=
  if '0' ≤ c ∧ c ≤ '7' then some (digitValue c) else none

def octal? (r : Raw) : Option Nat :=
  if r.isEmpty then none
  else (r.mapM octalValue?).map fun digits => digits.foldl (fun n d => n * 8 + d) 0

def isBlank (c : Char) : Bool := c == ' ' || c == '\t'

def isSpace (c : Char) : Bool := c == ' ' || (9 ≤ c.toNat && c.toNat ≤ 13)

def padStart (width : Nat) (r : Raw) : Raw := List.replicate (width - r.length) ' ' ++ r

def padEnd (width : Nat) (r : Raw) : Raw := r ++ List.replicate (width - r.length) ' '

def splitOn (sep : Char) : Raw → List Raw
  | [] => [[]]
  | c :: rest =>
    if c = sep then [] :: splitOn sep rest
    else match splitOn sep rest with
      | [] => [[c]]
      | first :: more => (c :: first) :: more

def lines (text : Raw) : List Raw × Bool :=
  match (splitOn '\n' text).reverse with
  | [] :: rest => (rest.reverse, true)
  | last :: rest => ((last :: rest).reverse, false)
  | [] => ([], true)

def unlines (lines : List Raw) : Raw := lines.flatMap (· ++ ['\n'])

def join (sep : Raw) (parts : List Raw) : Raw := (parts.intersperse sep).flatten

def le : Raw → Raw → Bool
  | [], _ => true
  | _ :: _, [] => false
  | c :: r, d :: s => if c = d then le r s else c.toNat < d.toNat

def lower (r : Raw) : Raw := r.map Char.toLower

end Raw
end MergeTrial.Shell
