import MergeTrial.Regex.Reader
import MergeTrial.Shell.Raw

/-! Patterns of the shell, and what they cut off a text. -/

namespace MergeTrial.Shell

inductive Glob where
  | char (c : Char)
  | any
  | many
  | oneOf (negated : Bool) (ranges : List (Char × Char))
  deriving DecidableEq

abbrev Pattern := List Glob

/-- A character of a pattern in the making, and whether it is quoted and so stands for itself. -/
abbrev Sign := Char × Bool

namespace Pattern

def cuts (cs : Raw) : List (Raw × Raw) :=
  (List.range (cs.length + 1)).map cs.splitAt

def isIn (ranges : List (Char × Char)) (c : Char) : Bool :=
  ranges.any fun r => decide (r.1.toNat ≤ c.toNat) && decide (c.toNat ≤ r.2.toNat)

def Glob.accepts : Glob → Char → Bool
  | .char c, d => c == d
  | .any, _ | .many, _ => true
  | .oneOf negated ranges, c => isIn ranges c != negated

def accepts : Pattern → Raw → Bool
  | [], cs => cs.isEmpty
  | .many :: rest, cs => (cuts cs).any fun cut => accepts rest cut.2
  | glob :: rest, c :: cs => Glob.accepts glob c && accepts rest cs
  | _ :: _, [] => false

def className? (signs : List Sign) : Option (List (Char × Char) × Nat) :=
  match signs with
  | ('[', false) :: (':', false) :: rest =>
    let name := (rest.map Prod.fst).takeWhile Char.isAlpha
    match rest.drop name.length with
    | (':', false) :: (']', false) :: _ =>
      (Regex.classRanges? (String.ofList name)).map fun ranges => (ranges, name.length + 4)
    | _ => none
  | _ => none

def setFrom (first : Bool) (ranges : List (Char × Char)) :
    Nat → List Sign → Option (List (Char × Char) × List Sign)
  | _, [] => none
  | skip + 1, _ :: rest => setFrom false ranges skip rest
  | 0, (c, quoted) :: rest =>
    if c = ']' ∧ !quoted ∧ !first then some (ranges, rest)
    else match className? ((c, quoted) :: rest) with
      | some (more, length) => setFrom false (ranges ++ more) (length - 1) rest
      | none =>
        match rest with
        | ('-', false) :: (d, quotedEnd) :: _ =>
          if d = ']' ∧ !quotedEnd then setFrom false (ranges ++ [(c, c)]) 0 rest
          else setFrom false (ranges ++ [(c, d)]) 2 rest
        | _ => setFrom false (ranges ++ [(c, c)]) 0 rest

def set? (signs : List Sign) : Option (Glob × List Sign) :=
  match signs with
  | ('!', false) :: rest =>
    (setFrom true [] 0 rest).map fun found => (.oneOf true found.1, found.2)
  | _ => (setFrom true [] 0 signs).map fun found => (.oneOf false found.1, found.2)

def ofSignsFrom : Nat → List Sign → Pattern
  | _, [] => []
  | skip + 1, _ :: rest => ofSignsFrom skip rest
  | 0, (c, quoted) :: rest =>
    if quoted then .char c :: ofSignsFrom 0 rest
    else if c = '*' then .many :: ofSignsFrom 0 rest
    else if c = '?' then .any :: ofSignsFrom 0 rest
    else if c = '[' then
      match set? rest with
      | some (glob, after) => glob :: ofSignsFrom (rest.length - after.length) rest
      | none => .char c :: ofSignsFrom 0 rest
    else .char c :: ofSignsFrom 0 rest

def ofSigns (signs : List Sign) : Pattern := ofSignsFrom 0 signs

def signsOf : Raw → List Sign
  | [] => []
  | '\\' :: c :: rest => (c, true) :: signsOf rest
  | c :: rest => (c, false) :: signsOf rest

def ofText (text : Raw) : Pattern := ofSigns (signsOf text)

def isOpen (signs : List Sign) : Bool :=
  signs.any fun sign => !sign.2 && (sign.1 == '*' || sign.1 == '?' || sign.1 == '[')

end Pattern

inductive Trim where
  | shortestFront
  | longestFront
  | shortestBack
  | longestBack
  deriving DecidableEq

namespace Trim

def seen (cs : Raw) : Raw := cs.takeWhile (· != '\x00')

def apply (trim : Trim) (pattern : Pattern) (cs : Raw) : Raw :=
  let cuts := Pattern.cuts cs
  let front (cut : Raw × Raw) : Bool := pattern.accepts (seen cut.1)
  let back (cut : Raw × Raw) : Bool := pattern.accepts (seen cut.2)
  match trim with
  | .shortestFront => ((cuts.find? front).map Prod.snd).getD cs
  | .longestFront => ((cuts.reverse.find? front).map Prod.snd).getD cs
  | .shortestBack => ((cuts.reverse.find? back).map Prod.fst).getD cs
  | .longestBack => ((cuts.find? back).map Prod.fst).getD cs

end Trim
end MergeTrial.Shell
