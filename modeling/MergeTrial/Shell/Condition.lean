import MergeTrial.Shell.World
import MergeTrial.Shell.Arithmetic

/-! Conditions on texts, numbers and files, as words. -/

namespace MergeTrial.Shell

namespace Condition

inductive Problem where
  | illegalNumber (text : Raw)
  | outOfRange (text : Raw)
  | noArgument (operator : Raw)
  | notClosed
  | unexpected (word : Raw)

abbrev Judgement := Except Problem

inductive Kind where
  | unary
  | binary
  | other
  deriving DecidableEq

def kind? (word : Raw) : Option Kind :=
  match String.ofList word with
  | "-b" | "-c" | "-d" | "-e" | "-f" | "-g" | "-h" | "-k" | "-L" | "-n" | "-p" | "-r" | "-s" | "-S"
  | "-t" | "-u" | "-w" | "-x" | "-z" | "-G" | "-O" => some .unary
  | "=" | "==" | "!=" | "<" | ">" | "-eq" | "-ne" | "-gt" | "-ge" | "-lt" | "-le" | "-nt" | "-ot"
  | "-ef" => some .binary
  | "!" | "-a" | "-o" | "(" | ")" => some .other
  | _ => none

def isBinary (word : Raw) : Bool := kind? word == some .binary

def maxNumber : Int := 9223372036854775807

def number (text : Raw) : Judgement Int :=
  let cs := text.dropWhile Raw.isSpace
  let (negative, cs) := match cs with
    | '-' :: rest => (true, rest)
    | '+' :: rest => (false, rest)
    | _ => (false, cs)
  match Arithmetic.digits 10 cs with
  | none => .error (.illegalNumber text)
  | some (n, rest) =>
    let value : Int := if negative then -(n : Int) else n
    if maxNumber < value ∨ value < -maxNumber - 1 then .error (.outOfRange text)
    else if rest.all Raw.isSpace then .ok value
    else .error (.illegalNumber text)

structure Facts where
  machine : Machine
  table : Descriptors

namespace Facts

def node? (facts : Facts) (path : Raw) : Option Node :=
  match facts.machine.node? (Raw.toBytes path) with
  | some (.special (.descriptor n)) =>
    if (facts.table.lookup n).isSome then some (.special .null) else none
  | found => found

def isLink (facts : Facts) (path : Raw) : Bool :=
  match facts.machine.resolveEntry (Raw.toBytes path) with
  | .ok ⟨_, some (.special (.link _))⟩ => true
  | _ => false

def isDevice : Node → Bool
  | .special (.program _) | .special (.link _) => false
  | .special _ => true
  | _ => false

def size : Node → Nat
  | .file content _ => content.length
  | .special (.program _) => 4096
  | .special (.link target) => target.length
  | .special _ => 0
  | .dir .. => 4096

def holds (facts : Facts) (operator word : Raw) : Bool :=
  let file (test : Node → Bool) : Bool := (facts.node? word).any test
  match String.ofList operator with
  | "-z" => word.isEmpty
  | "-n" => !word.isEmpty
  | "-e" => file fun _ => true
  | "-f" => file (·.isFile)
  | "-d" => file (·.isDir)
  | "-s" => file fun node => 0 < size node
  | "-r" => file (·.allows .read)
  | "-w" => file (·.allows .write)
  | "-x" => file (·.allows .execute)
  | "-c" => file isDevice
  | "-h" | "-L" => facts.isLink word
  | "-O" | "-G" => file fun
    | .special _ => false
    | _ => true
  | "-u" => file fun node => node.mode &&& 0o4000 != 0
  | "-g" => file fun node => node.mode &&& 0o2000 != 0
  | "-k" => file fun node => node.mode &&& 0o1000 != 0
  | _ => false

def sameFile (facts : Facts) (a b : Raw) : Bool :=
  match facts.machine.resolve (Raw.toBytes a), facts.machine.resolve (Raw.toBytes b) with
  | .ok ⟨first, some _⟩, .ok ⟨second, some _⟩ => first == second
  | _, _ => false

def compare (facts : Facts) (a operator b : Raw) : Judgement Bool := do
  let numbers (test : Int → Int → Bool) : Judgement Bool := do
    let x ← number a
    let y ← number b
    return test x y
  let lt (x y : Raw) : Bool := Raw.le x y && x != y
  match String.ofList operator with
  | "=" | "==" => return a == b
  | "!=" => return a != b
  | "<" => return lt a b
  | ">" => return lt b a
  | "-eq" => numbers (· == ·)
  | "-ne" => numbers (· != ·)
  | "-gt" => numbers fun x y => decide (y < x)
  | "-ge" => numbers fun x y => decide (y ≤ x)
  | "-lt" => numbers fun x y => decide (x < y)
  | "-le" => numbers fun x y => decide (x ≤ y)
  | "-nt" => return (facts.node? a).isSome && (facts.node? b).isNone
  | "-ot" => return (facts.node? a).isNone && (facts.node? b).isSome
  | "-ef" => return facts.sameFile a b
  | _ => return false

end Facts

def lead? (words : List Raw) : Option (Kind × Raw) :=
  match words with
  | [] => none
  | word :: rest =>
    match kind? word with
    | none => none
    | some .unary =>
      let isOperand : Bool := match rest with
        | [] => true
        | [_] => false
        | next :: after :: _ => isBinary next && after != [')']
      if isOperand then none else some (.unary, word)
    | some kind => if word = ['('] ∧ rest.isEmpty then none else some (kind, word)

abbrev Judge := List Raw → Judgement (Bool × List Raw)

def primary (facts : Facts) (whole : Judge) : Judge := fun words => do
  match words with
  | [] => return (false, [])
  | word :: rest =>
    match lead? words with
    | some (_, ['(']) =>
      if rest.head? = some [')'] then return (false, rest)
      else
        match ← whole rest with
        | (result, [')'] :: rest) => return (result, rest)
        | _ => throw .notClosed
    | some (.unary, _) =>
      match rest with
      | operand :: rest => return (facts.holds word operand, rest)
      | [] => throw (.noArgument word)
    | _ =>
      match rest with
      | operator :: more =>
        if isBinary operator then
          match more with
          | operand :: rest => return (← facts.compare word operator operand, rest)
          | [] => throw (.noArgument operator)
        else return (!word.isEmpty, rest)
      | [] => return (!word.isEmpty, rest)

def negated (facts : Facts) (whole : Judge) : Nat → Judge
  | 0, words => primary facts whole words
  | n + 1, words => do
    match lead? words with
    | some (_, ['!']) =>
      let (result, rest) ← negated facts whole n (words.drop 1)
      return (!result, rest)
    | _ => primary facts whole words

def joined (operator : Raw) (join : Bool → Bool → Bool) (part : Judge) : Nat → Judge
  | 0, words => part words
  | n + 1, words => do
    let (first, rest) ← part words
    if rest.head? = some operator then
      let (second, rest) ← joined operator join part n (rest.drop 1)
      return (join first second, rest)
    else return (first, rest)

def nested (facts : Facts) : Nat → Judge
  | 0, _ => .error .notClosed
  | n + 1, words =>
    let size := words.length
    let both := joined ['-', 'a'] and (negated facts (nested facts n) size) size
    joined ['-', 'o'] or both size words

def judge (facts : Facts) (words : List Raw) : Judgement Bool := do
  let compound : Judgement Bool := do
    let (result, rest) ← nested facts (words.length + 1) words
    if rest.isEmpty then return result
    else throw (.unexpected (words[words.length - rest.length - 1]?.getD []))
  match words with
  | [] => return false
  | [a, operator, b] => if isBinary operator then facts.compare a operator b else compound
  | _ => compound

end Condition
end MergeTrial.Shell
