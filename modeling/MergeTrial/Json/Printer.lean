import MergeTrial.Json.Value

/-! The written form of JSON: members and items on lines of their own, indented by two blanks. -/

namespace MergeTrial.Json

def hexDigit (n : Nat) : Char := if n < 10 then Char.ofNat (48 + n) else Char.ofNat (87 + n)

def escapeChar (c : Char) : List Char :=
  if c = '"' then ['\\', '"']
  else if c = '\\' then ['\\', '\\']
  else if c = '\n' then ['\\', 'n']
  else if c = '\r' then ['\\', 'r']
  else if c = '\t' then ['\\', 't']
  else if c.toNat = 8 then ['\\', 'b']
  else if c.toNat = 12 then ['\\', 'f']
  else if c.toNat < 32 then
    ['\\', 'u', '0', '0', hexDigit (c.toNat / 16), hexDigit (c.toNat % 16)]
  else [c]

def quote : Option String → List Char
  | some text => '"' :: (text.toList.flatMap escapeChar ++ ['"'])
  | none => ['"', '\\', 'u', 'd', '8', '0', '0', '"']

def indent (level : Nat) : List Char := '\n' :: List.replicate (2 * level) ' '

mutual

def write (level : Nat) : Json → List Char
  | .null => "null".toList
  | .bool true => "true".toList
  | .bool false => "false".toList
  | .int value => value.repr.toList
  | .decimal number => number.text
  | .string text => quote text
  | .array [] => ['[', ']']
  | .array (item :: rest) =>
    '[' :: (indent (level + 1) ++ (write (level + 1) item
      ++ (writeItems (level + 1) rest ++ (indent level ++ [']']))))
  | .object [] => ['\x7b', '\x7d']
  | .object ((key, value) :: rest) =>
    '\x7b' :: (indent (level + 1) ++ (quote key ++ (':' :: ' ' :: (write (level + 1) value
      ++ (writeMembers (level + 1) rest ++ (indent level ++ ['\x7d']))))))

def writeItems (level : Nat) : List Json → List Char
  | [] => []
  | item :: rest => ',' :: (indent level ++ (write level item ++ writeItems level rest))

def writeMembers (level : Nat) : List (Option String × Json) → List Char
  | [] => []
  | (key, value) :: rest =>
    ',' :: (indent level ++ (quote key ++ (':' :: ' ' :: (write level value
      ++ writeMembers level rest))))

end

def pretty (j : Json) : String := String.ofList (write 0 j)

end MergeTrial.Json
