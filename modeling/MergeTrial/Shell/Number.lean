import MergeTrial.Binary
import MergeTrial.Shell.Arithmetic

/-! Numbers in texts: reading whole and broken numbers off the start of a text, and the forms in
which directives print them. -/

namespace MergeTrial.Shell

namespace Number

def takeInt (text : Raw) : Option (Int × Raw) :=
  let cs := text.dropWhile Raw.isSpace
  match cs with
  | '-' :: rest => (Arithmetic.unsigned rest).map fun found => (-(found.1 : Int), found.2)
  | '+' :: rest => (Arithmetic.unsigned rest).map fun found => ((found.1 : Int), found.2)
  | _ => (Arithmetic.unsigned cs).map fun found => ((found.1 : Int), found.2)

/-- A number with a point and a power of ten: its sign, a numerator and a denominator. -/
structure Ratio where
  negative : Bool
  num : Nat
  den : Nat
  deriving Inhabited

def Ratio.ofInt (n : Int) : Ratio := ⟨n < 0, n.natAbs, 1⟩

def takePower (text : Raw) : Int × Raw :=
  let power (negative : Bool) (cs all : Raw) : Int × Raw :=
    match Arithmetic.digits 10 cs with
    | some (n, rest) => (if negative then -(n : Int) else n, rest)
    | none => (0, all)
  match text with
  | 'e' :: '-' :: rest | 'E' :: '-' :: rest => power true rest text
  | 'e' :: '+' :: rest | 'E' :: '+' :: rest => power false rest text
  | 'e' :: rest | 'E' :: rest => power false rest text
  | _ => (0, text)

def takeRatio (text : Raw) : Option (Ratio × Raw) :=
  let cs := text.dropWhile Raw.isSpace
  let (negative, cs) := match cs with
    | '-' :: rest => (true, rest)
    | '+' :: rest => (false, rest)
    | _ => (false, cs)
  let whole := cs.takeWhile Char.isDigit
  let rest := cs.dropWhile Char.isDigit
  let (fraction, rest) := match rest with
    | '.' :: more => (more.takeWhile Char.isDigit, more.dropWhile Char.isDigit)
    | _ => ([], rest)
  if whole.isEmpty && fraction.isEmpty then none
  else
    let (power, rest) := takePower rest
    let n := Raw.ofDigits (whole ++ fraction)
    let exponent : Int := power - fraction.length
    some (⟨negative, n * Nat.pow 10 exponent.toNat, Nat.pow 10 (-exponent).toNat⟩, rest)

def Ratio.rounded (r : Ratio) : Ratio :=
  let x := Binary.nearest r.num r.den
  ⟨r.negative, x.mantissa <<< x.exponent.toNat, 1 <<< (-x.exponent).toNat⟩

structure Form where
  flags : List Char
  width : Nat
  precision : Option Nat
  deriving Inhabited

namespace Form

def has (f : Form) (c : Char) : Bool := f.flags.contains c

def fill (f : Form) (zeros : Bool) (sign body : Raw) : Raw :=
  let missing := f.width - (sign.length + body.length)
  if f.has '-' then sign ++ body ++ List.replicate missing ' '
  else if zeros && f.has '0' then sign ++ List.replicate missing '0' ++ body
  else List.replicate missing ' ' ++ sign ++ body

def text (f : Form) (text : Raw) : Raw :=
  f.fill false [] (match f.precision with
    | some n => text.take n
    | none => text)

def sign (f : Form) (negative : Bool) : Raw :=
  if negative then ['-'] else if f.has '+' then ['+'] else if f.has ' ' then [' '] else []

def padded (f : Form) (digits : Raw) : Raw :=
  match f.precision with
  | some 0 => if digits = ['0'] then [] else digits
  | some n => List.replicate (n - digits.length) '0' ++ digits
  | none => digits

def signed (f : Form) (n : Int) : Raw :=
  f.fill f.precision.isNone (f.sign (n < 0)) (f.padded (Raw.ofNat n.natAbs))

def unsigned (f : Form) (base : Nat) (upper : Bool) (n : Nat) : Raw :=
  let digits := Nat.toDigits base n
  let digits := f.padded (if upper then digits.map Char.toUpper else digits)
  let mark : Raw :=
    if !f.has '#' || n == 0 then []
    else if base = 16 then (if upper then ['0', 'X'] else ['0', 'x'])
    else []
  let digits := if f.has '#' && base == 8 && digits.head? != some '0' then '0' :: digits else digits
  f.fill f.precision.isNone mark digits

def scaled (r : Ratio) (power : Int) : Nat :=
  roundHalfEven (r.num * Nat.pow 10 power.toNat) (r.den * Nat.pow 10 (-power).toNat)

def pointed (f : Form) (places n : Nat) : Raw :=
  let digits := Raw.ofNat n
  let digits := List.replicate (places + 1 - digits.length) '0' ++ digits
  let whole := digits.take (digits.length - places)
  if places = 0 then (if f.has '#' then whole ++ ['.'] else whole)
  else whole ++ '.' :: digits.drop (digits.length - places)

def magnitude (r : Ratio) : Int :=
  if r.num = 0 then 0
  else
    let guess : Int := ((Raw.ofNat r.num).length : Int) - (Raw.ofNat r.den).length
    let isBelow : Bool := match guess with
      | .ofNat n => decide (r.num < r.den * Nat.pow 10 n)
      | .negSucc n => decide (r.num * Nat.pow 10 (n + 1) < r.den)
    if isBelow then guess - 1 else guess

def scientific (r : Ratio) (places : Nat) : Nat × Int :=
  let power := magnitude r
  let n := scaled r ((places : Int) - power)
  if n < Nat.pow 10 (places + 1) then (n, power) else (n / 10, power + 1)

def powerText (upper : Bool) (power : Int) : Raw :=
  let digits := Raw.ofNat power.natAbs
  (if upper then 'E' else 'e') :: (if power < 0 then '-' else '+')
    :: (List.replicate (2 - digits.length) '0' ++ digits)

def withoutZeros (body : Raw) : Raw :=
  if body.contains '.' then
    let rest := body.reverse.dropWhile (· == '0')
    (if rest.head? == some '.' then rest.drop 1 else rest).reverse
  else body

def ratio (f : Form) (conversion : Char) (r : Ratio) : Raw :=
  let upper := conversion.isUpper
  let places := f.precision.getD 6
  let body : Raw := match conversion.toLower with
    | 'f' => f.pointed places (scaled r places)
    | 'e' =>
      let (n, power) := scientific r places
      f.pointed places n ++ powerText upper power
    | _ =>
      let digits := max places 1
      let (n, power) := scientific r (digits - 1)
      let trim (body : Raw) : Raw := if f.has '#' then body else withoutZeros body
      if power < -4 || (digits : Int) ≤ power then
        trim (f.pointed (digits - 1) n) ++ powerText upper power
      else
        let places := ((digits : Int) - 1 - power).toNat
        trim (f.pointed places (scaled r places))
  f.fill true (f.sign r.negative) body

end Form
end Number
end MergeTrial.Shell
