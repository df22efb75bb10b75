/-! Binary numbers with 53 significant bits, as doubles have them, in exact arithmetic. -/

namespace MergeTrial

def roundHalfEven (num den : Nat) : Nat :=
  let q := num / den
  let r := num % den
  if 2 * r < den then q
  else if den < 2 * r then q + 1
  else q + q % 2

structure Binary where
  mantissa : Nat
  exponent : Int
  deriving DecidableEq

namespace Binary

def scale (num den : Nat) (exponent : Int) : Nat × Nat :=
  (num <<< (-exponent).toNat, den <<< exponent.toNat)

/-- The quotient rounded to 53 significant bits, halves to even, without bounds on the exponent. -/
def nearest (num den : Nat) : Binary :=
  if num = 0 then ⟨0, 0⟩
  else
    let guess : Int := (num.log2 : Int) - den.log2 - 52
    let scaled := scale num den guess
    let exponent := if scaled.1 < scaled.2 <<< 52 then guess - 1 else guess
    let scaled := scale num den exponent
    let mantissa := roundHalfEven scaled.1 scaled.2
    if mantissa = 1 <<< 53 then ⟨1 <<< 52, exponent + 1⟩ else ⟨mantissa, exponent⟩

def bits (x : Binary) : Nat :=
  if x.mantissa = 0 then 0
  else (x.exponent + 1075).toNat <<< 52 + (x.mantissa - 1 <<< 52)

def scaleBy (x : Binary) (factor : Nat) : Binary :=
  nearest ((x.mantissa * factor) <<< x.exponent.toNat) (1 <<< (-x.exponent).toNat)

def tenths (x : Binary) : Nat :=
  roundHalfEven ((x.mantissa * 10) <<< x.exponent.toNat) (1 <<< (-x.exponent).toNat)

end Binary

end MergeTrial
