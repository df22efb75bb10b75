import MergeTrial.Regex.Reader
import MergeTrial.Shell.Condition
import MergeTrial.Shell.Utility.Lines

/-! Programs that work on their arguments alone. -/

namespace MergeTrial.Shell.Utility
open Work

/-! Printing arguments -/

def echoText : Nat → Raw → Raw × Bool
  | _, [] => ([], false)
  | skip + 1, _ :: rest => echoText skip rest
  | 0, c :: rest =>
    let more (text : Raw) (skip : Nat) : Raw × Bool :=
      let result := echoText skip rest
      (text ++ result.1, result.2)
    if c ≠ '\\' then more [c] 0
    else match rest with
      | 'c' :: _ => ([], true)
      | 'e' :: _ => more ['\x1b'] 1
      | 'x' :: after =>
        let digits := (after.take 2).takeWhile fun c => (Arithmetic.digit? 16 c).isSome
        if digits.isEmpty then more ['\\'] 0
        else
          let n := (digits.filterMap (Arithmetic.digit? 16)).foldl (fun n d => n * 16 + d) 0
          more [Char.ofNat n] (digits.length + 1)
      | '0' :: after =>
        let digits := Escape.octalDigits 3 after
        more [Escape.byte ('0' :: digits)] (digits.length + 1)
      | d :: _ =>
        match Escape.letter? d with
        | some e => more [e] 1
        | none => more ['\\'] 0
      | [] => more ['\\'] 0

def echoOptions : List Raw → Raw × List Raw
  | ('-' :: c :: cs) :: rest =>
    if (c :: cs).all "neE".toList.contains then
      let (letters, rest) := echoOptions rest
      (c :: cs ++ letters, rest)
    else ([], ('-' :: c :: cs) :: rest)
  | args => ([], args)

def echo : Work Unit := do
  let (letters, words) := echoOptions (← args)
  let escapes := (letters.reverse.find? fun c => c == 'e' || c == 'E') == some 'e'
  let text := Raw.join [' '] words
  let (text, isOver) := if escapes then echoText 0 text else (text, false)
  say (text ++ if letters.contains 'n' || isOver then [] else ['\n'])

def printfMessage : Print.Problem → Raw
  | .notNumber arg => quoted arg ++ ": expected a numeric value".toList
  | .incomplete arg => quoted arg ++ ": value not completely converted".toList
  | .outOfRange arg => quoted arg ++ ": Numerical result out of range".toList
  | .noConversion directive | .badConversion directive =>
    directive ++ ": invalid conversion specification".toList

def printf : Work Unit := do
  let words ← args
  let words := if words.head? = some ['-', '-'] then words.tail else words
  match words with
  | [] => misuse 1 "missing operand".toList
  | format :: values =>
    let p := Print.format format values
    p.problems.forM fun problem => complain (printfMessage problem)
    say p.out
    if p.problems.isEmpty ∧ !p.isOver ∧ !p.args.isEmpty then
      complain ("warning: ignoring excess arguments, starting with ".toList
        ++ quoted (p.args.headD []))
    if !p.problems.isEmpty then exit 1

/-! Conditions and expressions -/

def testMessage : Condition.Problem → Raw
  | .illegalNumber text | .outOfRange text => "invalid integer ".toList ++ quoted text
  | .noArgument operator => "missing argument after ".toList ++ quoted operator
  | .notClosed => "')' expected".toList
  | .unexpected word => "extra argument ".toList ++ quoted word

def test : Work Unit := do
  let name ← Work.name
  let words ← args
  let isBracket := name.getLast? = some '['
  if isBracket ∧ words.getLast? ≠ some [']'] then failWith 2 "missing ']'".toList
  else
    let facts : Condition.Facts := ⟨← machine, (← read).process.table⟩
    match Condition.judge facts (if isBracket then words.dropLast else words) with
    | .ok true => return ()
    | .ok false => exit 1
    | .error problem => failWith 2 (testMessage problem)

namespace Expr

inductive Problem where
  | malformed (message : Raw)
  | failed (message : Raw)

abbrev Reader := List Raw → Except Problem (Raw × List Raw)

def isNull (value : Raw) : Bool :=
  value.isEmpty || (Raw.int? value == some 0 && value.head? != some '+')

def integer (value : Raw) : Except Problem Int :=
  match (if value.head? == some '+' then none else Raw.int? value) with
  | some n => .ok n
  | none => .error (.failed "non-integer argument".toList)

def matchText (text pattern : Raw) : Except Problem Raw :=
  let grouped := pattern.zip (pattern.drop 1) |>.contains ('\\', '(')
  match Regex.read Regex.basic pattern with
  | .error fault => .error (.failed fault.message.toList)
  | .ok regex =>
    match regex.matchAt? ⟨text.toArray, false⟩ 0 with
    | none => .ok (if grouped then [] else ['0'])
    | some cursor =>
      if grouped then
        match cursor.groups.lookup 1 with
        | some (first, last) => .ok ((text.drop first).take (last - first))
        | none => .ok []
      else .ok (Raw.ofNat cursor.place)

def missing (words : List Raw) (before : Raw) : Problem :=
  match words with
  | [] => .malformed ("syntax error: missing argument after ".toList ++ quoted before)
  | word :: _ => .malformed ("syntax error: unexpected argument ".toList ++ quoted word)

def primary (whole : Reader) (before : Raw) : Reader := fun words => do
  match words with
  | [] => throw (missing [] before)
  | ['('] :: rest =>
    match ← whole rest with
    | (value, [')'] :: rest) => return (value, rest)
    | (_, []) => throw (.malformed ("syntax error: expecting ')' after ".toList
        ++ quoted (rest.getLastD [])))
    | (_, word :: _) => throw (.malformed ("syntax error: expecting ')' instead of ".toList
        ++ quoted word))
  | [')'] :: _ => throw (.malformed "syntax error: unexpected ')'".toList)
  | word :: rest => return (word, rest)

def function (whole : Reader) (before : Raw) : Reader := fun words => do
  let operand (before : Raw) : Reader := primary whole before
  match words with
  | name :: rest =>
    match String.ofList name with
    | "length" =>
      let (text, rest) ← operand name rest
      return (Raw.ofNat text.length, rest)
    | "match" =>
      let (text, rest) ← operand name rest
      let (pattern, rest) ← operand text rest
      return (← matchText text pattern, rest)
    | "index" =>
      let (text, rest) ← operand name rest
      let (chars, rest) ← operand text rest
      return (Raw.ofNat (((text.findIdx? chars.contains).map (· + 1)).getD 0), rest)
    | "substr" =>
      let (text, rest) ← operand name rest
      let (first, rest) ← operand text rest
      let (length, rest) ← operand first rest
      match Raw.nat? first, Raw.nat? length with
      | some (i + 1), some n => return ((text.drop i).take n, rest)
      | _, _ => return ([], rest)
    | "+" =>
      match rest with
      | word :: rest => return (word, rest)
      | [] => throw (missing [] name)
    | _ => primary whole before words
  | [] => primary whole before words

def chain (operand : Raw → Reader) (operators : List String)
    (apply : String → Raw → Raw → Except Problem Raw) : Nat → Raw → Reader
  | 0, value, words => .ok (value, words)
  | n + 1, value, words => do
    match words with
    | operator :: rest =>
      if operators.contains (String.ofList operator) then
        let (second, rest) ← operand operator rest
        chain operand operators apply n (← apply (String.ofList operator) value second) rest
      else return (value, words)
    | [] => return (value, words)

def level (operand : Raw → Reader) (operators : List String)
    (apply : String → Raw → Raw → Except Problem Raw) (before : Raw) : Reader := fun words => do
  let (value, rest) ← operand before words
  chain operand operators apply rest.length value rest

def arithmetic (operator : String) (a b : Raw) : Except Problem Raw := do
  let x ← integer a
  let y ← integer b
  if y = 0 ∧ (operator = "/" ∨ operator = "%") then throw (.failed "division by zero".toList)
  else
    return Raw.ofInt (match operator with
      | "*" => x * y
      | "/" => Int.tdiv x y
      | "%" => Int.tmod x y
      | "+" => x + y
      | _ => x - y)

def relation (operator : String) (a b : Raw) : Except Problem Raw :=
  let order := match Raw.int? a, Raw.int? b with
    | some x, some y => compare x y
    | _, _ => if a = b then .eq else if Raw.le a b then .lt else .gt
  let holds : Bool := match operator with
    | "<" => order == .lt
    | "<=" => order != .gt
    | "=" | "==" => order == .eq
    | "!=" => order != .eq
    | ">=" => order != .lt
    | _ => order == .gt
  .ok (if holds then ['1'] else ['0'])

def nested : Nat → Raw → Reader
  | 0, before, _ => .error (missing [] before)
  | n + 1, before, words =>
    let whole := nested n before
    let matchings := level (function whole) [":"] fun _ a b => matchText a b
    let products := level matchings ["*", "/", "%"] arithmetic
    let sums := level products ["+", "-"] arithmetic
    let relations := level sums ["<", "<=", "=", "==", "!=", ">=", ">"] relation
    let both := level relations ["&"] fun _ a b =>
      .ok (if isNull a || isNull b then ['0'] else a)
    let either := level both ["|"] fun _ a b =>
      .ok (if isNull a then (if isNull b then ['0'] else b) else a)
    either before words

def value (words : List Raw) : Except Problem Raw := do
  match ← nested (words.length + 1) [] words with
  | (value, []) => return value
  | (_, word :: _) => throw (.malformed ("syntax error: unexpected argument ".toList ++ quoted word))

end Expr

def expr : Work Unit := do
  let words ← args
  let words := if words.head? = some ['-', '-'] then words.tail else words
  if words.isEmpty then misuse 2 "missing operand".toList
  else
    match Expr.value words with
    | .ok value =>
      sayLine value
      if Expr.isNull value then exit 1
    | .error (.malformed message) | .error (.failed message) => failWith 2 message

/-! Paths as texts -/

def withoutSlashes (path : Raw) : Raw :=
  let bare := (path.reverse.dropWhile (· == '/')).reverse
  if bare.isEmpty && !path.isEmpty then ['/'] else bare

def baseName (path : Raw) : Raw :=
  let bare := withoutSlashes path
  if bare = ['/'] then bare else (bare.reverse.takeWhile (· != '/')).reverse

def dirName (path : Raw) : Raw :=
  let bare := withoutSlashes path
  if bare = ['/'] then bare
  else
    let parent := bare.reverse.dropWhile (· != '/')
    if parent.isEmpty then ['.'] else withoutSlashes parent.reverse

def withoutEnding (ending name : Raw) : Raw :=
  if ending.length < name.length && ending.isSuffixOf name then
    name.take (name.length - ending.length)
  else name

def basename : Work Unit := do
  let a ← arguments [.plain 'a' ["multiple"], .valued 's' ["suffix"], .plain 'z' ["zero"]] true 1
  let lineEnd : Raw := if a.has 'z' then ['\x00'] else ['\n']
  if a.has 'a' ∨ a.has 's' then
    let ending := (a.value? 's').getD []
    if a.operands.isEmpty then misuse 1 "missing operand".toList
    else say (a.operands.flatMap fun path => withoutEnding ending (baseName path) ++ lineEnd)
  else
    match a.operands with
    | [] => misuse 1 "missing operand".toList
    | [path] => say (baseName path ++ lineEnd)
    | [path, ending] => say (withoutEnding ending (baseName path) ++ lineEnd)
    | _ :: _ :: extra :: _ => misuse 1 ("extra operand ".toList ++ quoted extra)

def dirname : Work Unit := do
  let a ← arguments [.plain 'z' ["zero"]] false 1
  if a.operands.isEmpty then misuse 1 "missing operand".toList
  else say (a.operands.flatMap fun path => dirName path ++ (if a.has 'z' then ['\x00'] else ['\n']))

/-! Numbers and times -/

def placesOf (text : Raw) : Nat :=
  match text.dropWhile (· != '.') with
  | _ :: rest => (rest.takeWhile Char.isDigit).length
  | [] => 0

def unitsOf? (places : Nat) (text : Raw) : Option Int :=
  match Number.takeRatio text with
  | some (r, []) =>
    let n : Int := r.num * Nat.pow 10 places / r.den
    some (if r.negative then -n else n)
  | _ => none

def progression (step last : Int) : Nat → Int → List Int
  | 0, _ => []
  | n + 1, first =>
    if (0 ≤ step ∧ last < first) ∨ (step < 0 ∧ first < last) then []
    else first :: progression step last n (first + step)

def maxNumbers : Nat := 1000000

def seq : Work Unit := do
  let words ← args
  let isNumber (word : Raw) : Bool := (Number.takeRatio word).any fun found => found.2.isEmpty
  let words := if words.any fun word => word.head? == some '-' && isNumber word then
      (words.takeWhile fun word => !isNumber word) ++ ['-', '-']
        :: words.dropWhile fun word => !isNumber word
    else words
  let a ← match Arguments.read [.valued 'f' ["format"], .valued 's' ["separator"],
      .plain 'w' ["equal-width"]] true words with
    | .ok a => pure a
    | .error message => misuse 1 message
  let (first, step, last) ← match a.operands with
    | [] => misuse 1 "missing operand".toList
    | [last] => pure (['1'], ['1'], last)
    | [first, last] => pure (first, ['1'], last)
    | [first, step, last] => pure (first, step, last)
    | _ :: _ :: _ :: extra :: _ => misuse 1 ("extra operand ".toList ++ quoted extra)
  let places := max (placesOf first) (placesOf step)
  let finer := max places (placesOf last)
  let number (text : Raw) : Work Int := do
    match unitsOf? finer text with
    | some n => return n
    | none => misuse 1 ("invalid floating point argument: ".toList ++ quoted text)
  let low ← number first
  let stride ← number step
  let high ← number last
  if stride = 0 then
    misuse 1 ("invalid Zero increment value: ".toList ++ quoted step)
  else
    let factor := Nat.pow 10 finer
    let plain : Number.Form := ⟨[], 0, some places⟩
    let ratio (n : Int) : Number.Ratio := ⟨n < 0, n.natAbs, factor⟩
    let texts := (progression stride high maxNumbers low).map fun n =>
      match a.value? 'f' with
      | some format => (Print.format format [plain.ratio 'f' (ratio n)]).out
      | none => plain.ratio 'f' (ratio n)
    let width := texts.foldl (fun width text => max width text.length) 0
    let texts := if a.has 'w' then texts.map fun text =>
        match text with
        | '-' :: digits => '-' :: List.replicate (width - text.length) '0' ++ digits
        | _ => List.replicate (width - text.length) '0' ++ text
      else texts
    if !texts.isEmpty then say (Raw.join ((a.value? 's').getD ['\n']) texts ++ ['\n'])

def duration? (text : Raw) : Option Nat := do
  if String.ofList (Raw.lower text) = "infinity" ∨ String.ofList (Raw.lower text) = "inf" then
    return 1 <<< 60
  else
    let (r, rest) ← Number.takeRatio text
    guard (!r.negative)
    let unit ← match rest with
      | [] | ['s'] => some 1000
      | ['m'] => some 60000
      | ['h'] => some 3600000
      | ['d'] => some 86400000
      | _ => none
    return r.num * unit / r.den

def now : Work Nat := world do return (← get).clock

def sleep : Work Unit := do
  let a ← arguments [] false 1
  if a.operands.isEmpty then misuse 1 "missing operand".toList
  else
    match a.operands.find? fun text => (duration? text).isNone with
    | some text => misuse 1 ("invalid time interval ".toList ++ quoted text)
    | none =>
      let time := (a.operands.filterMap duration?).foldl (· + ·) 0
      waitUntil ((← now) + time)

def yes : Work Unit := do
  let words ← args
  let line := (if words.isEmpty then ['y'] else Raw.join [' '] words) ++ ['\n']
  let w ← world get
  let channel? := ((← stream? 1).bind fun stream => w.streams[stream]?).map Stream.channel
  let isPipe : Bool := match channel? with
    | some (.pipe n) => decide (2 ≤ n)
    | _ => false
  if isPipe then
    say (List.replicate 4096 line).flatten
    throw (.signal 13)
  else
    say line
    waitUntil (1 <<< 60)

end MergeTrial.Shell.Utility
