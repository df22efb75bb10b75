import MergeTrial.Shell.Utility.Lines

/-! Parts of lines, and characters in the place of others. -/

namespace MergeTrial.Shell.Utility
open Work

/-! Parts of lines -/

abbrev Interval := Nat × Option Nat

def Interval.holds (i : Interval) (n : Nat) : Bool := i.1 ≤ n && i.2.all fun last => n ≤ last

def interval? (text : Raw) : Option Interval :=
  let first := text.takeWhile (· != '-')
  match text.drop first.length with
  | [] => (Raw.nat? first).map fun n => (n, some n)
  | _ :: last =>
    if first.isEmpty && last.isEmpty then none
    else do
      let low ← if first.isEmpty then some 1 else Raw.nat? first
      if last.isEmpty then return (low, none)
      else
        let high ← Raw.nat? last
        guard (low ≤ high)
        return (low, some high)

def intervals? (text : Raw) : Option (List Interval) := do
  let found ← ((text.splitBy fun a b => !(a == ',' || a == ' ') && !(b == ',' || b == ' ')).filter
    fun part => part != [','] && part != [' ']).mapM interval?
  guard (!found.isEmpty && found.all fun i => 0 < i.1)
  return found

def chosen {α : Type} (choose : Nat → Bool) (parts : List α) : List α :=
  (parts.zipIdx.filter fun part => choose (part.2 + 1)).map Prod.fst

def chosenRuns (choose : Nat → Bool) (between : Raw) (line : Raw) : Raw :=
  let picked := line.zipIdx.filter fun c => choose (c.2 + 1)
  let step (state : Raw × Option Nat) (c : Char × Nat) : Raw × Option Nat :=
    let gap := state.2.any fun last => last + 1 != c.2
    (state.1 ++ (if gap then between else []) ++ [c.1], some c.2)
  (picked.foldl step ([], none)).1

def cut : Work Unit := do
  let a ← arguments [.valued 'b' ["bytes"], .valued 'c' ["characters"], .valued 'f' ["fields"],
    .valued 'd' ["delimiter"], .plain 's' ["only-delimited"], .plain 'n' [],
    .plain 'z' ["zero-terminated"], .long 'C' .nothing "complement",
    .long 'O' .value "output-delimiter"] false 1
  match a.options.filter fun option => "bcf".toList.contains option.1 with
  | [] => misuse 1 "you must specify a list of bytes, characters, or fields".toList
  | _ :: _ :: _ => misuse 1 "only one list may be specified".toList
  | [(letter, list)] =>
    if letter ≠ 'f' ∧ a.has 'd' then
      misuse 1 "an input delimiter may be specified only when operating on fields".toList
    else
      let delimiter ← match a.value? 'd' with
        | none => pure '\t'
        | some [c] => pure c
        | some [] => pure '\x00'
        | some _ => misuse 1 "the delimiter must be a single character".toList
      match intervals? list with
      | none =>
        let kind := if letter = 'f' then "fields are numbered from 1"
          else "byte/character positions are numbered from 1"
        let message := match (Raw.nat? list) with
          | some 0 => kind
          | _ => if letter = 'f' then "invalid field range" else "invalid byte or character range"
        misuse 1 message.toList
      | some found =>
        let choose (n : Nat) : Bool := (found.any fun i => Interval.holds i n) != a.has 'C'
        let between := (a.value? 'O').getD (if letter = 'f' then [delimiter] else [])
        eachText (orInput a.operands) fun _ text =>
          say ((linesOf text).flatMap fun line =>
            let line := bare line
            if letter = 'f' then
              let fields := Raw.splitOn delimiter line
              if fields.length = 1 then (if a.has 's' then [] else line ++ ['\n'])
              else Raw.join between (chosen choose fields) ++ ['\n']
            else chosenRuns choose between line ++ ['\n'])

/-! Characters in the place of others -/

namespace Translation

inductive Element where
  | chars (cs : Raw)
  | filler (c : Char) (count : Option Nat)

def character : Raw → Option (Char × Raw)
  | [] => none
  | '\\' :: rest =>
    match rest with
    | [] => some ('\\', [])
    | c :: more =>
      match Escape.letter? c with
      | some d => some (d, more)
      | none =>
        let digits := Escape.octalDigits 3 rest
        if digits.isEmpty then some (c, more) else some (Escape.byte digits, rest.drop digits.length)
  | c :: rest => some (c, rest)

def range (first last : Char) : Raw :=
  (List.range (last.toNat + 1 - first.toNat)).map fun i => Char.ofNat (first.toNat + i)

def classChars? (name : Raw) : Option Raw :=
  (Regex.classRanges? (String.ofList name)).map fun ranges =>
    (range '\x00' '\u00ff').filter fun c => ranges.any fun r => r.1 ≤ c && c ≤ r.2

def bracket? (text : Raw) : Option (Element × Raw) :=
  match text with
  | '[' :: ':' :: rest =>
    let name := rest.takeWhile (· != ':')
    match rest.drop name.length with
    | ':' :: ']' :: more => (classChars? name).map fun cs => (.chars cs, more)
    | _ => none
  | '[' :: '=' :: c :: '=' :: ']' :: rest => some (.chars [c], rest)
  | '[' :: rest =>
    match character rest with
    | some (c, '*' :: more) =>
      let digits := more.takeWhile Char.isDigit
      match more.drop digits.length with
      | ']' :: after =>
        let count := if digits.head? == some '0' then Raw.octal? digits else Raw.nat? digits
        some (.filler c (count.filter (0 < ·)), after)
      | _ => none
    | _ => none
  | _ => none

def elements : Nat → Raw → Except Raw (List Element)
  | 0, _ => .ok []
  | n + 1, text => do
    match bracket? text with
    | some (element, rest) => return element :: (← elements n rest)
    | none =>
      match character text with
      | none => return []
      | some (c, '-' :: rest) =>
        match character rest with
        | none => return .chars [c] :: .chars ['-'] :: []
        | some (d, rest) =>
          if d < c then throw [c, '-', d]
          else return .chars (range c d) :: (← elements n rest)
      | some (c, rest) => return .chars [c] :: (← elements n rest)

def expand (length : Nat) (elements : List Element) : Raw :=
  let fixed := elements.foldl (fun n element => n + match element with
    | .chars cs => cs.length
    | .filler _ count => count.getD 0) 0
  elements.flatMap fun
    | .chars cs => cs
    | .filler c count => List.replicate (count.getD (length - fixed)) c

def complement (set : Raw) : Raw := (range '\x00' '\u00ff').filter fun c => !set.contains c

def squeeze (set : Raw) : Raw → Raw
  | a :: b :: rest =>
    if a = b ∧ set.contains a then squeeze set (b :: rest) else a :: squeeze set (b :: rest)
  | text => text

end Translation

def tr : Work Unit := do
  let a ← arguments [.plain 'c' ["complement"], .plain 'C' [], .plain 'd' ["delete"],
    .plain 's' ["squeeze-repeats"], .plain 't' ["truncate-set1"]] true 1
  let set (text : Raw) : Work (List Translation.Element) := do
    match Translation.elements (text.length + 1) text with
    | .ok found => return found
    | .error range =>
      failWith 1 ("range-endpoints of '".toList ++ range
        ++ "' are in reverse collating sequence order".toList)
  let needsTwo := !a.has 'd' && !a.has 's' || (a.has 'd' && a.has 's')
  match a.operands with
  | [] => misuse 1 "missing operand".toList
  | [only] =>
    if needsTwo then
      complain ("missing operand after ".toList ++ quoted only)
      let reason := if a.has 'd' then
          "Two strings must be given when both deleting and squeezing repeats.\n"
        else "Two strings must be given when translating.\n"
      let _ ← write 2 reason.toList
      tryHelp 1
  | [_, second] =>
    if a.has 'd' ∧ !a.has 's' then
      complain ("extra operand ".toList ++ quoted second)
      let _ ← write 2
        "Only one string may be given when deleting without squeezing repeats.\n".toList
      tryHelp 1
  | _ :: _ :: extra :: _ => misuse 1 ("extra operand ".toList ++ quoted extra)
  let first := Translation.expand 0 (← set (a.operands.headD []))
  let first := if a.has 'c' || a.has 'C' then Translation.complement first else first
  let second := Translation.expand first.length (← set ((a.operands.drop 1).headD []))
  let text := match ← readInput with
    | .ok text => text
    | .error _ => []
  if a.has 'd' then
    let kept := text.filter fun c => !first.contains c
    say (if a.has 's' then Translation.squeeze second kept else kept)
  else if a.operands.length = 1 then say (Translation.squeeze first text)
  else if second.isEmpty ∧ !a.has 't' then
    failWith 1 "when not truncating set1, string2 must be non-empty".toList
  else
    let first := if a.has 't' then first.take second.length else first
    let translated (c : Char) : Char :=
      match (first.zipIdx.reverse.find? fun entry => entry.1 == c) with
      | some (_, i) => (second[i]?).getD (second.getLastD c)
      | none => c
    let result := text.map translated
    say (if a.has 's' then Translation.squeeze second result else result)

end MergeTrial.Shell.Utility
