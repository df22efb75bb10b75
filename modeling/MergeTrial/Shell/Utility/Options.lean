import MergeTrial.Shell.Process

/-! The arguments of programs: options with one letter or a long name, and operands. -/

namespace MergeTrial.Shell

inductive Takes where
  | nothing
  | value
  | maybe
  deriving DecidableEq

structure Flag where
  letter : Char
  takes : Takes
  names : List String
  isShort : Bool

namespace Flag

def plain (letter : Char) (names : List String) : Flag := ⟨letter, .nothing, names, true⟩

def valued (letter : Char) (names : List String) : Flag := ⟨letter, .value, names, true⟩

def long (letter : Char) (takes : Takes) (name : String) : Flag := ⟨letter, takes, [name], false⟩

def letters (text : String) : List Flag := text.toList.map fun c => plain c []

end Flag

structure Arguments where
  options : List (Char × Raw)
  operands : List Raw

namespace Arguments

def has (a : Arguments) (letter : Char) : Bool := a.options.any (·.1 == letter)

def value? (a : Arguments) (letter : Char) : Option Raw := a.options.reverse.lookup letter

def lastOf (a : Arguments) (letters : String) : Option Char :=
  (a.options.reverse.find? fun option => letters.toList.contains option.1).map Prod.fst

def values (a : Arguments) (letter : Char) : List Raw :=
  (a.options.filter (·.1 == letter)).map Prod.snd

def candidates (flags : List Flag) (name : Raw) : List (Flag × String) :=
  let all := flags.flatMap fun flag => flag.names.map fun n => (flag, n)
  match all.filter fun entry => entry.2.toList == name with
  | [] => all.filter fun entry => name.isPrefixOf entry.2.toList
  | exact => exact

def readLong (flags : List Flag) (word : Raw) (rest : List Raw) :
    Except Raw (Char × Raw × List Raw) :=
  let name := word.takeWhile (· != '=')
  let value? : Option Raw := match word.drop name.length with
    | _ :: value => some value
    | [] => none
  let quoted (text : Raw) : Raw := "'--".toList ++ text ++ ['\'']
  let found (flag : Flag) (full : Raw) : Except Raw (Char × Raw × List Raw) :=
    match flag.takes, value?, rest with
    | .nothing, some _, _ =>
      .error ("option ".toList ++ quoted full ++ " doesn't allow an argument".toList)
    | .nothing, none, _ | .maybe, none, _ => .ok (flag.letter, [], rest)
    | _, some value, _ => .ok (flag.letter, value, rest)
    | .value, none, value :: rest => .ok (flag.letter, value, rest)
    | .value, none, [] =>
      .error ("option ".toList ++ quoted full ++ " requires an argument".toList)
  match candidates flags name with
  | [] => .error ("unrecognized option ".toList ++ quoted word)
  | [(flag, full)] => found flag full.toList
  | (flag, full) :: more =>
    if more.all fun entry => entry.1.letter == flag.letter then found flag full.toList
    else .error ("option ".toList ++ quoted name ++ " is ambiguous; possibilities:".toList
      ++ ((flag, full) :: more).flatMap fun entry => ' ' :: quoted entry.2.toList)

def readLetters (flags : List Flag) (rest : List Raw) :
    Raw → Except Raw (List (Char × Raw) × List Raw)
  | [] => .ok ([], rest)
  | c :: more => do
    match flags.find? fun flag => flag.isShort && flag.letter == c with
    | none => throw ("invalid option -- '".toList ++ [c, '\''])
    | some flag =>
      match flag.takes, more, rest with
      | .nothing, more, _ =>
        let (options, rest) ← readLetters flags rest more
        return ((c, []) :: options, rest)
      | .maybe, more, _ => return ([(c, more)], rest)
      | .value, [], value :: rest => return ([(c, value)], rest)
      | .value, [], [] => throw ("option requires an argument -- '".toList ++ [c, '\''])
      | .value, more, _ => return ([(c, more)], rest)

def readFrom (flags : List Flag) (inOrder : Bool) : Nat → List Raw → Except Raw Arguments
  | 0, args => .ok ⟨[], args⟩
  | n + 1, args => do
    match args with
    | [] => return ⟨[], []⟩
    | ['-', '-'] :: rest => return ⟨[], rest⟩
    | ('-' :: '-' :: word) :: rest =>
      let (letter, value, rest) ← readLong flags word rest
      let more ← readFrom flags inOrder n rest
      return { more with options := (letter, value) :: more.options }
    | ('-' :: c :: word) :: rest =>
      let (options, rest) ← readLetters flags rest (c :: word)
      let more ← readFrom flags inOrder n rest
      return { more with options := options ++ more.options }
    | operand :: rest =>
      if inOrder then return ⟨[], args⟩
      else
        let more ← readFrom flags inOrder n rest
        return { more with operands := operand :: more.operands }

def read (flags : List Flag) (inOrder : Bool) (args : List Raw) : Except Raw Arguments :=
  readFrom flags inOrder (args.length + 1) args

end Arguments

namespace Work

def tryHelp {α : Type} (code : Nat) : Work α := do
  let name ← Work.name
  let _ ← write 2 ("Try '".toList ++ name ++ " --help' for more information.\n".toList)
  exit code

def misuse {α : Type} (code : Nat) (message : Raw) : Work α := do
  complain message
  tryHelp code

def arguments (flags : List Flag) (inOrder : Bool) (code : Nat) : Work Arguments := do
  match Arguments.read flags inOrder (← args) with
  | .ok arguments => return arguments
  | .error message => misuse code message

def isOdd (c : Char) : Bool := c.toNat < 32 || 127 ≤ c.toNat

def escape (c : Char) : Raw :=
  match c with
  | '\n' => ['\\', 'n']
  | '\t' => ['\\', 't']
  | '\r' => ['\\', 'r']
  | '\x07' => ['\\', 'a']
  | '\x08' => ['\\', 'b']
  | '\x0b' => ['\\', 'v']
  | '\x0c' => ['\\', 'f']
  | _ =>
    let digits := Nat.toDigits 8 c.toNat
    '\\' :: (List.replicate (3 - digits.length) '0' ++ digits)

def pieces : Bool → Raw → Raw
  | false, [] => ['\'']
  | true, [] => ['\'']
  | false, c :: rest =>
    if isOdd c then "'$'".toList ++ escape c ++ pieces true rest
    else if c = '\'' then "'\\''".toList ++ pieces false rest
    else c :: pieces false rest
  | true, c :: rest =>
    if isOdd c then escape c ++ pieces true rest
    else if c = '\'' then "''\\''".toList ++ pieces false rest
    else "''".toList ++ c :: pieces false rest

def quoted (text : Raw) : Raw :=
  if text.contains '\'' && !(text.any fun c => isOdd c || "\"$\x60\\!".toList.contains c) then
    '"' :: text ++ ['"']
  else '\'' :: pieces false text

def isPlain (c : Char) : Bool :=
  c.isAlphanum || "%+,-./@_]#~\x7b\x7d".toList.contains c

def shown (name : Raw) : Raw :=
  if name.isEmpty || !name.all isPlain || (name.head?).any (fun c => c == '#' || c == '~') then
    quoted name
  else name

def refuse (name : Raw) (fault : FileFault) : Work Unit :=
  complain (shown name ++ Raw.ofString (": " ++ fault.reason))

def cannot (action : String) (name : Raw) (fault : FileFault) : Work Unit :=
  complain (Raw.ofString ("cannot " ++ action ++ " ") ++ quoted name
    ++ Raw.ofString (": " ++ fault.reason))

def forEach (operands : List Raw) (action : Raw → Work Bool) : Work Unit := do
  let results ← operands.mapM action
  if results.contains false then exit 1

end Work
end MergeTrial.Shell
