import MergeTrial.Shell.Utility.Lines

/-! Sorting lines by keys, and telling neighbours that are the same. -/

namespace MergeTrial.Shell.Utility
open Work

namespace Sorting

structure Manner where
  ignoreBlanks : Bool
  dictionary : Bool
  foldCase : Bool
  printable : Bool
  number : Option Char
  reverse : Bool
  deriving DecidableEq, Inhabited

namespace Manner

def plain : Manner := ⟨false, false, false, false, none, false⟩

def add (m : Manner) (c : Char) : Option Manner :=
  match c with
  | 'b' => some { m with ignoreBlanks := true }
  | 'd' => some { m with dictionary := true }
  | 'f' => some { m with foldCase := true }
  | 'i' => some { m with printable := true }
  | 'n' | 'g' | 'h' | 'M' | 'V' => some { m with number := some c }
  | 'r' => some { m with reverse := true }
  | _ => none

end Manner

structure Key where
  firstField : Nat
  firstChar : Nat
  last : Option (Nat × Nat)
  manner : Manner
  blanksAtEnd : Bool
  deriving Inhabited

def skipFields (separator : Option Char) (passLast : Bool) : Nat → Raw → Raw
  | 0, line => line
  | n + 1, line =>
    match separator with
    | some c =>
      let rest := line.dropWhile (· != c)
      skipFields separator passLast n (if passLast || n != 0 then rest.drop 1 else rest)
    | none =>
      skipFields separator passLast n
        ((line.dropWhile Raw.isSpace).dropWhile fun c => !Raw.isSpace c)

def Key.part (key : Key) (separator : Option Char) (line : Raw) : Raw :=
  let start := skipFields separator true key.firstField line
  let start := (if key.manner.ignoreBlanks then start.dropWhile Raw.isSpace else start).drop
    key.firstChar
  match key.last with
  | none => start
  | some (field, chars) =>
    let rest :=
      if chars = 0 then skipFields separator false (field + 1) line
      else
        let rest := skipFields separator true field line
        (if key.blanksAtEnd then rest.dropWhile Raw.isSpace else rest).drop chars
    start.take (start.length - rest.length)

def decimal (text : Raw) : Int × Nat :=
  let cs := text.dropWhile Raw.isSpace
  let negative := cs.head? == some '-'
  let cs := if negative then cs.drop 1 else cs
  let whole := cs.takeWhile Char.isDigit
  let rest := cs.drop whole.length
  let fraction := match rest with
    | '.' :: more => more.takeWhile Char.isDigit
    | _ => []
  let n : Int := Raw.ofDigits (whole ++ fraction)
  (if negative then -n else n, fraction.length)

def compareDecimals (a b : Int × Nat) : Ordering :=
  compare (a.1 * Nat.pow 10 b.2) (b.1 * Nat.pow 10 a.2)

def unitRank (text : Raw) : Int :=
  let cs := text.dropWhile Raw.isSpace
  let negative := cs.head? == some '-'
  let rest := (if negative then cs.drop 1 else cs).dropWhile fun c => c.isDigit || c == '.'
  let rank : Int := match rest.head? with
    | some c => (("KMGTPEZY".toList.findIdx? (· == c.toUpper)).map (fun i => (i : Int) + 1)).getD 0
    | none => 0
  if negative then -rank else rank

def months : List String :=
  ["JAN", "FEB", "MAR", "APR", "MAY", "JUN", "JUL", "AUG", "SEP", "OCT", "NOV", "DEC"]

def monthRank (text : Raw) : Nat :=
  let name := ((text.dropWhile Raw.isSpace).take 3).map Char.toUpper
  ((months.findIdx? fun month => month.toList == name).map (· + 1)).getD 0

def runs (text : Raw) : List Raw := text.splitBy fun a b => a.isDigit == b.isDigit

def compareVersions : List Raw → List Raw → Ordering
  | [], [] => .eq
  | [], _ :: _ => .lt
  | _ :: _, [] => .gt
  | a :: as, b :: bs =>
    let order := match Raw.nat? a, Raw.nat? b with
      | some m, some n => compare m n
      | _, _ => if a = b then .eq else if Raw.le a b then .lt else .gt
    order.then (compareVersions as bs)

def compareTexts (a b : Raw) : Ordering :=
  if a = b then .eq else if Raw.le a b then .lt else .gt

def ratioOf (text : Raw) : Option Number.Ratio := (Number.takeRatio text).map Prod.fst

def compareRatios (a b : Option Number.Ratio) : Ordering :=
  let value (r : Number.Ratio) : Int := if r.negative then -(r.num : Int) else r.num
  match a, b with
  | none, none => .eq
  | none, some _ => .lt
  | some _, none => .gt
  | some a, some b => compare (value a * b.den) (value b * a.den)

def Manner.reduce (m : Manner) (text : Raw) : Raw :=
  let kept := text.filter fun c =>
    (!m.dictionary || c.isAlphanum || Raw.isBlank c) && (!m.printable || (' ' ≤ c && c ≤ '~'))
  if m.foldCase then kept.map Char.toUpper else kept

def Manner.compare (m : Manner) (a b : Raw) : Ordering :=
  let order := match m.number with
    | some 'n' => compareDecimals (decimal a) (decimal b)
    | some 'h' => (Ord.compare (unitRank a) (unitRank b)).then (compareDecimals (decimal a) (decimal b))
    | some 'g' => compareRatios (ratioOf a) (ratioOf b)
    | some 'M' => Ord.compare (monthRank a) (monthRank b)
    | some 'V' => compareVersions (runs a) (runs b)
    | _ =>
      let skip (text : Raw) : Raw := if m.ignoreBlanks then text.dropWhile Raw.isSpace else text
      compareTexts (m.reduce (skip a)) (m.reduce (skip b))
  if m.reverse then order.swap else order

def manner (letters : Raw) : Option Manner :=
  letters.foldlM (fun m c => m.add c) Manner.plain

def place (text : Raw) : Option (Nat × Nat × Raw) := do
  let field := text.takeWhile Char.isDigit
  let rest := text.drop field.length
  guard (!field.isEmpty)
  match rest with
  | '.' :: more =>
    let chars := more.takeWhile Char.isDigit
    guard (!chars.isEmpty)
    return (Raw.ofDigits field, Raw.ofDigits chars, more.drop chars.length)
  | _ => return (Raw.ofDigits field, 0, rest)

def key? (whole : Manner) (text : Raw) : Option Key := do
  let (first, last) := match Raw.splitOn ',' text with
    | [first] => (first, none)
    | first :: rest => (first, some (Raw.join [','] rest))
    | [] => ([], none)
  let (field, char, letters) ← place first
  let (ending, lastLetters) ← match last with
    | none => some (none, [])
    | some text => (place text).map fun p => (some (p.1 - 1, p.2.1), p.2.2)
  let own ← manner (letters ++ lastLetters)
  let inherits := letters.isEmpty && lastLetters.isEmpty
  let blanks := if inherits then whole.ignoreBlanks else letters.contains 'b'
  let manner := { (if inherits then whole else own) with ignoreBlanks := blanks }
  return ⟨field - 1, char - 1, ending, manner, lastLetters.contains 'b'⟩

structure Order where
  keys : List Key
  whole : Manner
  separator : Option Char
  last : Bool

def Order.compare (o : Order) (a b : Raw) : Ordering :=
  let byKeys := if o.keys.isEmpty then o.whole.compare a b
    else o.keys.foldl (fun order key =>
      order.then (key.manner.compare (key.part o.separator a) (key.part o.separator b))) .eq
  let byAll := if o.last then
      let order := compareTexts a b
      if o.whole.reverse then order.swap else order
    else .eq
  byKeys.then byAll

def distinct (same : Raw → Raw → Bool) : List Raw → List Raw
  | a :: b :: rest => if same a b then distinct same (a :: rest) else a :: distinct same (b :: rest)
  | lines => lines
termination_by lines => lines.length

def disorder (bad : Raw → Raw → Bool) : Nat → List Raw → Option (Nat × Raw)
  | n, a :: b :: rest => if bad a b then some (n + 1, b) else disorder bad (n + 1) (b :: rest)
  | _, _ => none

end Sorting

def sortFlags : List Flag :=
  [.plain 'b' ["ignore-leading-blanks"], .plain 'd' ["dictionary-order"],
    .plain 'f' ["ignore-case"], .plain 'i' ["ignore-nonprinting"], .plain 'n' ["numeric-sort"],
    .plain 'g' ["general-numeric-sort"], .plain 'h' ["human-numeric-sort"],
    .plain 'M' ["month-sort"], .plain 'V' ["version-sort"], .plain 'r' ["reverse"],
    .valued 'k' ["key"], .valued 't' ["field-separator"], .plain 'u' ["unique"],
    .plain 's' ["stable"], .plain 'c' [], .long 'c' .maybe "check", .plain 'C' [],
    .plain 'm' ["merge"], .valued 'o' ["output"], .plain 'z' ["zero-terminated"],
    .valued 'T' ["temporary-directory"], .valued 'S' ["buffer-size"]]

def sortSeparator (a : Arguments) : Work (Option Char) := do
  match a.value? 't' with
  | none => return none
  | some [c] => return some c
  | some ['\\', '0'] => return some '\x00'
  | some [] => failWith 2 "empty tab".toList
  | some text => failWith 2 ("multi-character tab ".toList ++ quoted text)

def sort : Work Unit := do
  let a ← arguments sortFlags false 2
  let whole := "bdfinghMVr".toList.foldl
    (fun m c => if a.has c then (m.add c).getD m else m) Sorting.Manner.plain
  let keys ← (a.values 'k').mapM fun text =>
    match Sorting.key? whole text with
    | some key => return key
    | none =>
      failWith 2 ("-: invalid field specification ".toList ++ quoted text)
  let order : Sorting.Order := ⟨keys, whole, ← sortSeparator a, !a.has 's' && !a.has 'u'⟩
  let texts ← (orInput a.operands).mapM fun operand => do
    match ← readOperand operand with
    | .ok text => return text
    | .error .isDirectory => failWith 2 ("read failed: ".toList ++ shown operand
        ++ ": Is a directory".toList)
    | .error fault => failWith 2 ("cannot read: ".toList ++ shown operand
        ++ (": " ++ fault.reason).toList)
  let lines := texts.flatMap fun text => (linesOf text).map bare
  if a.has 'c' ∨ a.has 'C' then
    let bad (x y : Raw) : Bool :=
      order.compare x y == .gt || (a.has 'u' && order.compare x y == .eq)
    match Sorting.disorder bad 1 lines with
    | none => return ()
    | some (n, line) =>
      if a.has 'c' then
        complain (a.operands.headD ['-'] ++ ':' :: Raw.ofNat n ++ ": disorder: ".toList ++ line)
      exit 1
  else
    let sorted := lines.mergeSort fun x y => order.compare x y != .gt
    let sorted := if a.has 'u' then Sorting.distinct (fun x y => order.compare x y == .eq) sorted
      else sorted
    match a.value? 'o' with
    | none => say (Raw.unlines sorted)
    | some path =>
      match ← writeFile path (Raw.unlines sorted) with
      | .ok () => return ()
      | .error fault => failWith 2 ("open failed: ".toList ++ shown path
          ++ (": " ++ fault.reason).toList)

/-! Neighbours that are the same -/

def uniqueKey (fields chars : Nat) (width : Option Nat) (foldCase : Bool) (line : Raw) : Raw :=
  let rest := (Sorting.skipFields none true fields line).drop chars
  let rest := match width with
    | some n => rest.take n
    | none => rest
  if foldCase then rest.map Char.toUpper else rest

def uniq : Work Unit := do
  let a ← arguments [.plain 'c' ["count"], .plain 'd' ["repeated"], .plain 'D' [],
    .plain 'u' ["unique"], .plain 'i' ["ignore-case"], .valued 'f' ["skip-fields"],
    .valued 's' ["skip-chars"], .valued 'w' ["check-chars"], .plain 'z' []] false 1
  let number (c : Char) : Nat := ((a.value? c).bind Raw.nat?).getD 0
  let key := uniqueKey (number 'f') (number 's') ((a.value? 'w').bind Raw.nat?) (a.has 'i')
  match a.operands with
  | _ :: _ :: extra :: _ => misuse 1 ("extra operand ".toList ++ quoted extra)
  | operands =>
    match ← readOperand (operands.headD ['-']) with
    | .error fault => failWith 1 (shown (operands.headD ['-']) ++ (": " ++ fault.reason).toList)
    | .ok text =>
      let groups := ((linesOf text).map bare).splitBy fun x y => key x == key y
      let kept := groups.filter fun group =>
        (!(a.has 'd' || a.has 'D') || 1 < group.length) && (!a.has 'u' || group.length == 1)
      let out := kept.flatMap fun group =>
        if a.has 'D' then Raw.unlines group
        else
          (if a.has 'c' then Raw.padStart 7 (Raw.ofNat group.length) ++ [' '] else [])
            ++ group.headD [] ++ ['\n']
      match operands with
      | [_, path] =>
        match ← writeFile path out with
        | .ok () => return ()
        | .error fault => failWith 1 (shown path ++ (": " ++ fault.reason).toList)
      | _ => say out

def commLines : Nat → List Raw → List Raw → List (Nat × Raw)
  | 0, _, _ => []
  | _, [], bs => bs.map fun b => (1, b)
  | _, as, [] => as.map fun a => (0, a)
  | n + 1, a :: as, b :: bs =>
    if a = b then (2, a) :: commLines n as bs
    else if Raw.le a b then (0, a) :: commLines n as (b :: bs)
    else (1, b) :: commLines n (a :: as) bs

def comm : Work Unit := do
  let a ← arguments [.plain '1' [], .plain '2' [], .plain '3' [], .plain 'z' []] false 1
  match a.operands with
  | [first, second] =>
    let read (operand : Raw) : Work (List Raw) := do
      match ← readOperand operand with
      | .ok text => return (linesOf text).map bare
      | .error fault => failWith 1 (shown operand ++ (": " ++ fault.reason).toList)
    let xs ← read first
    let ys ← read second
    let hidden (column : Nat) : Bool := a.has (Char.ofNat (49 + column))
    let tabs (column : Nat) : Nat :=
      ((List.range column).filter fun before => !hidden before).length
    let lines := (commLines (xs.length + ys.length + 1) xs ys).filter fun line => !hidden line.1
    say (lines.flatMap fun line => List.replicate (tabs line.1) '\t' ++ line.2 ++ ['\n'])
  | [] => misuse 1 "missing operand".toList
  | [only] => misuse 1 ("missing operand after ".toList ++ quoted only)
  | _ :: _ :: extra :: _ => misuse 1 ("extra operand ".toList ++ quoted extra)

end MergeTrial.Shell.Utility
