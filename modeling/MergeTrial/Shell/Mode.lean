import MergeTrial.Shell.Raw

/-! Changes of permission bits: an octal number, or clauses of users, operators and permissions. -/

namespace MergeTrial.Shell.Mode

def users? (c : Char) : Option Nat :=
  match c with
  | 'u' => some 0o4700
  | 'g' => some 0o2070
  | 'o' => some 0o1007
  | 'a' => some 0o7777
  | _ => none

def everyone : Nat := 0o7777

def bits (mode : Nat) (isDir : Bool) (c : Char) : Option Nat :=
  match c with
  | 'r' => some 0o444
  | 'w' => some 0o222
  | 'x' => some 0o111
  | 'X' => some (if isDir || mode &&& 0o111 != 0 then 0o111 else 0)
  | 's' => some 0o6000
  | 't' => some 0o1000
  | _ => none

def copied (mode : Nat) (c : Char) : Option Nat :=
  match c with
  | 'u' => some (0o111 * (mode / 64 % 8))
  | 'g' => some (0o111 * (mode / 8 % 8))
  | 'o' => some (0o111 * (mode % 8))
  | _ => none

/-- The mode after an operator on these users' permissions; a permission that the mask withholds
is left as it is. -/
def operate (operator : Char) (who withheld value mode : Nat) : Nat :=
  let value := value &&& who &&& (everyone ^^^ withheld)
  match operator with
  | '+' => mode ||| value
  | '-' => mode &&& (everyone ^^^ value)
  | _ => (mode &&& (everyone ^^^ (who &&& 0o777))) ||| value

def permissions (mode : Nat) (isDir : Bool) (cs : Raw) : Nat × Nat :=
  match cs with
  | c :: _ =>
    match copied mode c with
    | some value => (value, 1)
    | none =>
      let letters := cs.takeWhile fun c => (bits mode isDir c).isSome
      ((letters.filterMap (bits mode isDir)).foldl (· ||| ·) 0, letters.length)
  | [] => (0, 0)

def operators (who withheld : Nat) (isDir : Bool) : Nat → Raw → Nat → Option Nat
  | _, [], mode => some mode
  | skip + 1, _ :: rest, mode => operators who withheld isDir skip rest mode
  | 0, c :: rest, mode =>
    if c = '+' ∨ c = '-' ∨ c = '=' then
      let (value, length) := permissions mode isDir rest
      operators who withheld isDir length rest (operate c who withheld value mode)
    else none

def clause (mask : Nat) (isDir : Bool) (mode : Nat) (cs : Raw) : Option Nat :=
  let who := cs.takeWhile fun c => (users? c).isSome
  let rest := cs.drop who.length
  if rest.isEmpty then none
  else if who.isEmpty then operators everyone (mask &&& 0o777) isDir 0 rest mode
  else operators ((who.filterMap users?).foldl (· ||| ·) 0) 0 isDir 0 rest mode

def change? (change : Raw) (mask : Nat) (isDir : Bool) (mode : Nat) : Option Nat :=
  if (change.headD ' ').isDigit then
    ((Raw.octal? change).filter (· ≤ everyone)).map fun new =>
      if isDir && change.length ≤ 4 then new ||| (mode &&& 0o6000) else new
  else (Raw.splitOn ',' change).foldlM (clause mask isDir) mode

def digits (mode : Nat) : Raw := [512, 64, 8, 1].flatMap fun place => Raw.ofNat (mode / place % 8)

def letters (permissions : Nat) (special : Bool) (mark : Char) : Raw :=
  let executable := permissions % 2 == 1
  [if permissions / 4 % 2 == 1 then 'r' else '-', if permissions / 2 % 2 == 1 then 'w' else '-',
    if special then (if executable then mark else mark.toUpper)
    else if executable then 'x' else '-']

def text (mode : Nat) : Raw :=
  letters (mode / 64 % 8) (mode / 2048 % 2 == 1) 's' ++ letters (mode / 8 % 8) (mode / 1024 % 2 == 1) 's'
    ++ letters (mode % 8) (mode / 512 % 2 == 1) 't'

def describe (mode : Nat) : Raw := digits mode ++ " (".toList ++ text mode ++ [')']

end MergeTrial.Shell.Mode
