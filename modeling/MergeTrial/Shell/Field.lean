import MergeTrial.Shell.Pattern

/-! What the expansion of a word leaves: characters that know whether they are quoted and whether
they may separate fields, and the fields that they make up. -/

namespace MergeTrial.Shell

inductive Mark where
  | char (c : Char) (quoted splits : Bool)
  | present
  | boundary
  | gap
  deriving DecidableEq, Inhabited

namespace Mark

def ofText (quoted splits : Bool) (text : Raw) : List Mark := text.map fun c => .char c quoted splits

def signs (marks : List Mark) : List Sign :=
  marks.filterMap fun
    | .char c quoted _ => some (c, quoted)
    | _ => none

def text (marks : List Mark) : Raw := (signs marks).map Prod.fst

end Mark

/-- Fields under construction: those that are complete and the open one, all with the last first. -/
structure Fields where
  complete : List (List Mark)
  current : List Mark
  afterBlank : Bool

namespace Fields

def start : Fields := ⟨[], [], false⟩

def close (f : Fields) (afterBlank : Bool) : Fields :=
  ⟨f.current.reverse :: f.complete, [], afterBlank⟩

def add (f : Fields) (mark : Mark) : Fields := ⟨f.complete, mark :: f.current, false⟩

def isBlank (c : Char) : Bool := c == ' ' || c == '\t' || c == '\n'

def step (separators : Raw) (f : Fields) : Mark → Fields
  | .boundary => f.close false
  | .gap => if f.current.isEmpty then f else f.close true
  | .present => f.add .present
  | .char c quoted splits =>
    if !splits || !separators.contains c then f.add (.char c quoted splits)
    else if isBlank c then
      if f.current.isEmpty then f else f.close true
    else if f.current.isEmpty && f.afterBlank then { f with afterBlank := false }
    else f.close false

def finish (f : Fields) : List (List Mark) :=
  (if f.current.isEmpty then f.complete else f.current.reverse :: f.complete).reverse

end Fields

namespace Mark

def split (separators : Raw) (marks : List Mark) : List (List Mark) :=
  (marks.foldl (Fields.step separators) .start).finish

def isSeparator (separators : Raw) (blank : Bool) : Mark → Bool
  | .char c _ splits => splits && separators.contains c && (!blank || Fields.isBlank c)
  | _ => false

def withoutBlanks (separators : Raw) (marks : List Mark) : List Mark :=
  marks.dropWhile (isSeparator separators true)

def takeField (separators : Raw) (marks : List Mark) : List Mark × List Mark :=
  let marks := withoutBlanks separators marks
  let inField (mark : Mark) : Bool := !isSeparator separators false mark
  let rest := withoutBlanks separators (marks.dropWhile inField)
  match rest with
  | mark :: more =>
    (marks.takeWhile inField, if inField mark then rest else withoutBlanks separators more)
  | [] => (marks.takeWhile inField, [])

/-- As many texts as asked for: fields, and all that is left as the last of them, which loses its
last separator if it is one field. -/
def splitInto (separators : Raw) : Nat → List Mark → List Raw
  | 0, _ => []
  | 1, marks =>
    match split separators marks with
    | [] => [[]]
    | [field] => [text field]
    | _ =>
      let marks := withoutBlanks separators marks
      [text (withoutBlanks separators marks.reverse).reverse]
  | n + 2, marks =>
    let (field, rest) := takeField separators marks
    text field :: splitInto separators (n + 1) rest

end Mark

end MergeTrial.Shell
