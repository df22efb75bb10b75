import MergeTrial.Binary

/-! Numbers as they are written: digits, how many of them follow the point, and a power of ten.
Readers that keep doubles take the leading digits that fit a word, and scale them by a double. -/

namespace MergeTrial

structure Decimal where
  negative : Bool
  digits : Nat
  places : Nat
  power : Int
  deriving DecidableEq, Inhabited

namespace Decimal

def ofInt (n : Int) : Decimal := ⟨n < 0, n.natAbs, 0, 0⟩

def digitsOf (n : Nat) : List Nat := (Nat.toDigits 10 n).map fun c => c.toNat - 48

def whole (d : Decimal) : List Nat := digitsOf (d.digits / Nat.pow 10 d.places)

def fraction (d : Decimal) : List Nat :=
  let digits := digitsOf (d.digits % Nat.pow 10 d.places)
  (List.replicate (d.places - digits.length) 0 ++ digits).drop (digits.length - d.places)

def text (d : Decimal) : List Char :=
  let spell (digits : List Nat) : List Char := digits.map Nat.digitChar
  (if d.negative then ['-'] else []) ++ spell d.whole
    ++ (if d.places = 0 then [] else '.' :: spell d.fraction) ++ 'e' :: d.power.repr.toList

/-- Takes digits into a number as long as it stays in a 64-bit word; gives the digits left. -/
def absorb (n : Nat) : List Nat → Nat × List Nat
  | [] => (n, [])
  | digit :: rest =>
    if n * 10 + digit < UInt64.size then absorb (n * 10 + digit) rest else (n, digit :: rest)

/-- The significand that a reader takes, and the power of ten that it belongs to. -/
def taken (d : Decimal) : Nat × Int :=
  let (n, dropped) := absorb 0 d.whole
  let (n, left) := absorb n d.fraction
  (n, dropped.length - ((d.fraction.length : Int) - left.length) + d.power)

def doubleLimit : Nat := (1 <<< 1024) - (1 <<< 970)

def maxPower : Nat := 308

def staysFinite (a b : Binary) : Bool :=
  (a.mantissa * b.mantissa) <<< (a.exponent + b.exponent).toNat
    < doubleLimit <<< (-(a.exponent + b.exponent)).toNat

def isFinite (d : Decimal) : Bool :=
  match d.taken with
  | (0, _) => true
  | (n, .ofNat power) =>
    power ≤ maxPower && staysFinite (.nearest n 1) (.nearest (Nat.pow 10 power) 1)
  | (_, .negSucc _) => true

end Decimal
end MergeTrial
