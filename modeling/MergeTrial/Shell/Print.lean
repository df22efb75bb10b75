import MergeTrial.Shell.Number

/-! Formatted printing: escapes, and directives that take the arguments one by one. -/

namespace MergeTrial.Shell

namespace Escape

def letter? (c : Char) : Option Char :=
  match c with
  | '\\' => some '\\'
  | 'a' => some '\x07'
  | 'b' => some '\x08'
  | 'f' => some '\x0c'
  | 'n' => some '\n'
  | 'r' => some '\r'
  | 't' => some '\t'
  | 'v' => some '\x0b'
  | _ => none

def byte (digits : Raw) : Char := Char.ofNat ((Raw.octal? digits).getD 0 % 256)

def octalDigits (most : Nat) (cs : Raw) : Raw :=
  (cs.take most).takeWhile fun c => (Raw.octalValue? c).isSome

def take (cs : Raw) : Raw × Nat :=
  match cs with
  | [] => (['\\'], 0)
  | c :: _ =>
    match letter? c with
    | some d => ([d], 1)
    | none =>
      let digits := octalDigits 3 cs
      if digits.isEmpty then (['\\'], 0) else ([byte digits], digits.length)

/-- Replaces the escapes of a text, up to one that ends it; says whether there is one. The next
`skip` characters belong to an escape. An octal number may have a zero before its three digits. -/
def expandFrom : Nat → Raw → Raw × Bool
  | _, [] => ([], false)
  | skip + 1, _ :: rest => expandFrom skip rest
  | 0, c :: rest =>
    let more (text : Raw) (skip : Nat) : Raw × Bool :=
      let result := expandFrom skip rest
      (text ++ result.1, result.2)
    if c ≠ '\\' then more [c] 0
    else match rest with
      | 'c' :: _ => ([], true)
      | '0' :: after =>
        let digits := octalDigits 3 after
        more [byte ('0' :: digits)] (digits.length + 1)
      | _ => more (take rest).1 (take rest).2

def expand (cs : Raw) : Raw × Bool := expandFrom 0 cs

end Escape

namespace Print

inductive Problem where
  | notNumber (arg : Raw)
  | incomplete (arg : Raw)
  | outOfRange (arg : Raw)
  | noConversion (directive : Raw)
  | badConversion (directive : Raw)

structure Printing where
  out : Raw
  args : List Raw
  problems : List Problem
  isOver : Bool

namespace Printing

def say (p : Printing) (text : Raw) : Printing := { p with out := p.out ++ text }

def report (p : Printing) (problem : Problem) : Printing :=
  { p with problems := p.problems ++ [problem] }

def next (p : Printing) : Raw × Printing := (p.args.headD [], { p with args := p.args.tail })

def maxSigned : Int := 9223372036854775807

def maxUnsigned : Int := 18446744073709551615

def integer (p : Printing) (arg : Raw) (high : Int) : Int × Printing :=
  match arg with
  | '\'' :: rest | '"' :: rest => ((((rest.headD '\x00').toNat : Nat) : Int), p)
  | [] => (0, p)
  | _ =>
    match Number.takeInt arg with
    | none => (0, p.report (.notNumber arg))
    | some (n, rest) =>
      let clamped := max (-maxSigned - 1) (min high n)
      let p := if clamped ≠ n then p.report (.outOfRange arg)
        else if rest.isEmpty then p
        else p.report (.incomplete arg)
      (clamped, p)

def ratio (p : Printing) (arg : Raw) : Number.Ratio × Printing :=
  match arg with
  | '\'' :: rest | '"' :: rest => (.ofInt (rest.headD '\x00').toNat, p)
  | [] => (.ofInt 0, p)
  | _ =>
    match Number.takeRatio arg with
    | none => (.ofInt 0, p.report (.notNumber arg))
    | some (r, rest) => (r.rounded, if rest.isEmpty then p else p.report (.incomplete arg))

end Printing

def count (p : Printing) (cs : Raw) : Option Int × Nat × Printing :=
  match cs with
  | '*' :: _ =>
    let (arg, p) := p.next
    let (n, p) := p.integer arg Printing.maxSigned
    (some n, 1, p)
  | _ =>
    let digits := cs.takeWhile Char.isDigit
    (if digits.isEmpty then none else some (Raw.ofDigits digits : Nat), digits.length, p)

def convert (p : Printing) (form : Number.Form) (conversion : Char) : Option Printing :=
  let (arg, after) := p.next
  let signed : Printing :=
    let (n, p) := after.integer arg Printing.maxSigned
    p.say (form.signed n)
  let unsigned (base : Nat) (upper : Bool) : Printing :=
    let (n, p) := after.integer arg Printing.maxUnsigned
    p.say (form.unsigned base upper (Arithmetic.bits n))
  match conversion with
  | 's' => some (after.say (form.text arg))
  | 'b' =>
    let (text, isOver) := Escape.expand arg
    some { after.say (form.text text) with isOver := isOver }
  | 'c' =>
    let char := [arg.headD '\x00']
    some (after.say ({ form with precision := none }.text char))
  | 'd' | 'i' => some signed
  | 'u' => some (unsigned 10 false)
  | 'o' => some (unsigned 8 false)
  | 'x' => some (unsigned 16 false)
  | 'X' => some (unsigned 16 true)
  | 'e' | 'E' | 'f' | 'F' | 'g' | 'G' =>
    let (r, p) := after.ratio arg
    some (p.say (form.ratio conversion r))
  | _ => none

def directive (p : Printing) (cs : Raw) : Printing × Nat :=
  let flags := cs.takeWhile "#-+ 0".toList.contains
  let rest := cs.drop flags.length
  let (width, widthLength, p) := count p rest
  let rest := rest.drop widthLength
  let (precision, precisionLength, p) := match rest with
    | '.' :: more =>
      let (n, length, p) := count p more
      (some (n.getD 0), length + 1, p)
    | _ => (none, 0, p)
  let rest := rest.drop precisionLength
  let length := flags.length + widthLength + precisionLength
  let width := width.getD 0
  let form : Number.Form :=
    ⟨if width < 0 then '-' :: flags else flags, width.natAbs,
      (precision.filter (0 ≤ ·)).map Int.toNat⟩
  match rest with
  | [] => ({ p.report (.noConversion ('%' :: cs.take length)) with isOver := true }, length)
  | conversion :: _ =>
    match convert p form conversion with
    | some p => (p, length + 1)
    | none =>
      ({ p.report (.badConversion ('%' :: cs.take (length + 1))) with isOver := true }, length + 1)

def pass : Nat → Raw → Printing → Printing
  | _, [], p => p
  | skip + 1, _ :: rest, p => pass skip rest p
  | 0, c :: rest, p =>
    if p.isOver then p
    else if c = '\\' then pass (Escape.take rest).2 rest (p.say (Escape.take rest).1)
    else if c = '%' then
      match rest with
      | '%' :: _ => pass 1 rest (p.say ['%'])
      | _ =>
        let (p, length) := directive p rest
        pass length rest p
    else pass 0 rest (p.say [c])

def passes (format : Raw) : Nat → Printing → Printing
  | 0, p => p
  | n + 1, p =>
    let after := pass 0 format p
    if after.isOver || after.args.isEmpty || after.args.length == p.args.length then after
    else passes format n after

def format (format : Raw) (args : List Raw) : Printing :=
  passes format (args.length + 1) ⟨[], args, [], false⟩

end Print
end MergeTrial.Shell
