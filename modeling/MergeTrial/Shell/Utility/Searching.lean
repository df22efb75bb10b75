import MergeTrial.Regex.Reader
import MergeTrial.Shell.Pattern
import MergeTrial.Shell.Utility.Words

/-! The program that prints the lines that match patterns. -/

namespace MergeTrial.Shell.Utility
open Work

namespace Search

inductive Language where
  | basic
  | extended
  | fixed
  deriving DecidableEq

structure Manner where
  patterns : List Regex
  fold : Bool
  wholeLine : Bool
  wholeWord : Bool
  arguments : Arguments
  before : Nat
  after : Nat
  most : Option Nat
  showsName : Bool
  ending : Char

def literal (text : Raw) : Regex :=
  match text.reverse with
  | [] => .empty
  | last :: rest =>
    rest.foldl (fun regex c => .seq (.one (.single c)) regex) (.one (.single last))

def read (language : Language) (pattern : Raw) : Except Regex.Fault Regex :=
  match language with
  | .basic => Regex.read Regex.basic pattern
  | .extended => Regex.read Regex.extended pattern
  | .fixed => .ok (literal pattern)

def Manner.endsAt (m : Manner) (s : Regex.Subject) (start : Nat) : List Nat :=
  let all := m.patterns.flatMap fun r => (Regex.ends s r ⟨start, []⟩).map (·.place)
  all.mergeSort fun a b => decide (b ≤ a)

def Manner.suits (m : Manner) (s : Regex.Subject) (start finish : Nat) : Bool :=
  if m.wholeLine then start == 0 && finish == s.chars.size
  else if m.wholeWord then !s.wordBefore start && !s.wordAt finish
  else true

def Manner.matchFrom? (m : Manner) (s : Regex.Subject) (start : Nat) : Option (Nat × Nat) :=
  (List.range (s.chars.size + 1 - start)).findSome? fun i =>
    ((m.endsAt s (start + i)).find? (m.suits s (start + i))).map fun finish => (start + i, finish)

def Manner.parts (m : Manner) (s : Regex.Subject) : Nat → Nat → List (Nat × Nat)
  | 0, _ => []
  | n + 1, start =>
    match m.matchFrom? s start with
    | none => []
    | some (first, last) =>
      if first = last then m.parts s n (first + 1)
      else (first, last) :: m.parts s n last

structure Line where
  number : Nat
  offset : Nat
  text : Raw
  isSelected : Bool

def Manner.subject (m : Manner) (text : Raw) : Regex.Subject := ⟨text.toArray, m.fold⟩

def Manner.selects (m : Manner) (text : Raw) : Bool :=
  (m.matchFrom? (m.subject text) 0).isSome != m.arguments.has 'v'

def Manner.lines (m : Manner) (text : Raw) : List Line :=
  let parts := Raw.splitOn m.ending text
  let parts := if parts.getLast? = some [] then parts.dropLast else parts
  let step (state : Nat × Nat × List Line) (entry : Raw × Nat) : Nat × Nat × List Line :=
    let (offset, found, lines) := state
    let isSelected := m.most.all (found < ·) && m.selects entry.1
    (offset + entry.1.length + 1, if isSelected then found + 1 else found,
      ⟨entry.2 + 1, offset, entry.1, isSelected⟩ :: lines)
  (parts.zipIdx.foldl step (0, 0, [])).2.2.reverse

def Manner.lead (m : Manner) (name : Raw) (line : Line) (offset : Nat) (mark : Char) : Raw :=
  (if m.showsName then name ++ [mark] else [])
    ++ (if m.arguments.has 'n' then Raw.ofNat line.number ++ [mark] else [])
    ++ (if m.arguments.has 'b' then Raw.ofNat (line.offset + offset) ++ [mark] else [])

def Manner.shown (m : Manner) (name : Raw) (line : Line) : Raw :=
  if m.arguments.has 'o' then
    if !line.isSelected || m.arguments.has 'v' then []
    else (m.parts (m.subject line.text) (line.text.length + 1) 0).flatMap fun part =>
      m.lead name line part.1 ':' ++ (line.text.drop part.1).take (part.2 - part.1) ++ [m.ending]
  else
    m.lead name line 0 (if line.isSelected then ':' else '-') ++ line.text ++ [m.ending]

def Manner.printed (m : Manner) (lines : List Line) : List Line :=
  let chosen := (lines.filter (·.isSelected)).map (·.number)
  lines.filter fun line => chosen.any fun n =>
    n ≤ line.number + m.before && line.number ≤ n + m.after

def Manner.joined (m : Manner) (name : Raw) : Option Nat → List Line → Raw
  | _, [] => []
  | last, line :: rest =>
    let gap := (0 < m.before || 0 < m.after) && last.any (· + 1 ≠ line.number)
    (if gap then "--\n".toList else []) ++ m.shown name line
      ++ m.joined name (some line.number) rest

def isBinary (text : Raw) : Bool := text.contains '\x00'

def search (m : Manner) (name text : Raw) (continues : Bool) : Work Bool := do
  let a := m.arguments
  let binary := isBinary text && !a.has 'a' && m.ending == '\n'
  let lines := m.lines (if binary then text.map fun c => if c = '\x00' then '\n' else c else text)
  let count := lines.countP (·.isSelected)
  let found := 0 < count
  if a.has 'q' then
    if found then exit 0
    return found
  else if a.has 'l' ∨ a.has 'L' then
    if found = (a.lastOf "lL" == some 'l') then sayLine name
    return found
  else if a.has 'c' then
    sayLine ((if m.showsName then name ++ [':'] else []) ++ Raw.ofNat count)
    return found
  else if found ∧ binary then
    if !a.has 'I' then complain (name ++ ": binary file matches".toList)
    return found && !a.has 'I'
  else
    say (m.joined name (if continues then some 0 else none) (m.printed lines))
    return found

def feedsItself (m : Manner) (path : Raw) : Work Bool := do
  let prints := !("qclL".toList.any m.arguments.has) && m.most.all (1 < ·)
  return prints && (← overlap? path).isSome

/-- What is known after some files: whether a line was found, and whether there was an error. -/
structure Progress where
  found : Bool
  failed : Bool

def isWanted (a : Arguments) (path : Raw) : Bool :=
  let name := baseName path
  let fits (glob : Raw) : Bool := (Pattern.ofText glob).accepts name
  !(a.values 'X').any fits && ((a.values 'G').isEmpty || (a.values 'G').any fits)

def refuses (m : Manner) (path : Raw) (fault : FileFault) : Work Unit := do
  if !m.arguments.has 's' then complain (path ++ Raw.ofString (": " ++ fault.reason))

def searchInput (m : Manner) (path name text : Raw) (p : Progress) : Work Progress := do
  if ← feedsItself m path then
    complain (name ++ ": input file is also the output".toList)
    return { p with failed := true }
  else
    let found ← search m name text p.found
    return { p with found := p.found || found }

def searchPath (m : Manner) : Nat → Bool → Progress → Raw → Work Progress
  | 0, _, p, _ => return p
  | n + 1, isTop, p, path => do
    let machine ← Work.machine
    let recursive := m.arguments.has 'r' || m.arguments.has 'R'
    match machine.node? (Raw.toBytes path) with
    | some (.dir _ entries) =>
      if !recursive then
        refuses m path .isDirectory
        let _ ← search { m with arguments := { m.arguments with
          options := m.arguments.options.filter fun option => option.1 != 'z' } } path [] p.found
        return { p with failed := true }
      else if (m.arguments.values 'D').any fun glob =>
          (Pattern.ofText glob).accepts (baseName path) then return p
      else
        entries.foldlM (fun p entry => do
          let child := Raw.ofBytes (Path.join (Raw.toBytes path) entry.1)
          searchPath m n false p child) p
    | _ =>
      if (recursive || !isTop) && !isWanted m.arguments path then return p
      else
        match ← readFile path with
        | .ok text =>
          let m := if isTop || m.arguments.has 'h' then m else { m with showsName := true }
          searchInput m path path text p
        | .error fault =>
          refuses m path fault
          return { p with failed := true }

def flags : List Flag :=
  [.plain 'E' ["extended-regexp"], .plain 'F' ["fixed-strings"], .plain 'G' ["basic-regexp"],
    .plain 'P' ["perl-regexp"], .valued 'e' ["regexp"], .valued 'f' ["file"],
    .plain 'i' ["ignore-case"], .plain 'y' [], .plain 'v' ["invert-match"],
    .plain 'w' ["word-regexp"], .plain 'x' ["line-regexp"], .plain 'c' ["count"],
    .plain 'l' ["files-with-matches"], .plain 'L' ["files-without-match"],
    .plain 'q' ["quiet", "silent"], .plain 's' ["no-messages"], .plain 'o' ["only-matching"],
    .plain 'n' ["line-number"], .plain 'b' ["byte-offset"], .plain 'H' ["with-filename"],
    .plain 'h' ["no-filename"], .valued 'm' ["max-count"], .valued 'A' ["after-context"],
    .valued 'B' ["before-context"], .valued 'C' ["context"], .plain 'r' ["recursive"],
    .plain 'R' ["dereference-recursive"], .plain 'a' ["text"], .plain 'I' [],
    .plain 'z' ["null-data"], .plain 'U' ["binary"], .plain 'T' ["initial-tab"]]

def longFlags : List Flag :=
  [.long 'N' .nothing "no-ignore-case", .long 'V' .value "label",
    .long 'X' .value "exclude", .long 'D' .value "exclude-dir",
    ⟨'K', .maybe, ["color", "colour"], false⟩, .long 'O' .nothing "line-buffered"]

def includeFlag : Flag := .long 'G' .value "include"

def expandDigits (word : Raw) : List Raw :=
  match word with
  | '-' :: d :: rest =>
    if d.isDigit ∧ rest.all Char.isDigit then ["-C".toList, d :: rest] else [word]
  | _ => [word]

end Search

def grep : Work Unit := do
  let usage {α : Type} : Work α := do
    let _ ← write 2 ("Usage: grep [OPTION]... PATTERNS [FILE]...\n"
      ++ "Try 'grep --help' for more information.\n").toList
    exit 2
  let given := (← args).flatMap Search.expandDigits
  let flags := (Search.flags.filter (·.letter ≠ 'G')) ++ Search.longFlags ++ [Search.includeFlag]
    ++ [⟨'g', .nothing, ["basic-regexp"], false⟩]
  let given := given.map fun word => if word = "-G".toList then "--basic-regexp".toList else word
  let a ← match Arguments.read flags false given with
    | .ok a => pure a
    | .error message => do
      complain message
      usage
  let patternFiles ← (a.values 'f').mapM fun path => do
    match ← readOperand path with
    | .ok text => return (Raw.lines text).1
    | .error fault => failWith 2 (path ++ Raw.ofString (": " ++ fault.reason))
  let (texts, files) ← if a.has 'e' ∨ a.has 'f' then pure (a.values 'e', a.operands)
    else match a.operands with
      | pattern :: files => pure ([pattern], files)
      | [] => usage
  let texts := texts.flatMap (Raw.splitOn '\n') ++ patternFiles.flatten
  let matchers := (a.options.map Prod.fst).filter fun c => "EFPg".toList.contains c
  if matchers.any fun c => matchers.head? ≠ some c then
    failWith 2 "conflicting matchers specified".toList
  let language := match a.lastOf "EFPg" with
    | some 'F' => .fixed
    | some 'g' => .basic
    | some _ => .extended
    | none => .basic
  let patterns ← texts.mapM fun text => do
    match Search.read language text with
    | .ok regex => return regex
    | .error fault => failWith 2 (Raw.ofString fault.message)
  let context (letters : String) : Work Nat := do
    match a.lastOf letters with
    | none => return 0
    | some letter =>
      let text := (a.value? letter).getD []
      match Raw.nat? text with
      | some n => return n
      | none => failWith 2 (text ++ ": invalid context length argument".toList)
  let after ← context "AC"
  let before ← context "BC"
  let most ← (a.value? 'm').mapM fun text => do
    match Raw.nat? text with
    | some n => return n
    | none => failWith 2 "invalid max count".toList
  let recursive := a.has 'r' || a.has 'R'
  let showsName := match a.lastOf "hH" with
    | some 'H' => true
    | some _ => false
    | none => 1 < files.length
  let m : Search.Manner :=
    { patterns := patterns
      fold := (a.lastOf "iyN").any (· != 'N')
      wholeLine := a.has 'x'
      wholeWord := a.has 'w'
      arguments := a
      before := if a.has 'o' then 0 else before
      after := if a.has 'o' then 0 else after
      most := most
      showsName := showsName
      ending := if a.has 'z' then '\x00' else '\n' }
  let label := (a.value? 'V').getD "(standard input)".toList
  let step (p : Search.Progress) (path : Raw) : Work Search.Progress := do
    if path = ['-'] then
      match ← readInput with
      | .ok text => Search.searchInput m path label text p
      | .error fault =>
        Search.refuses m label fault
        return { p with failed := true }
    else Search.searchPath m 64 true p path
  let progress ← if files.isEmpty ∧ recursive then do
      let entries := ((← machine).node? [Path.dot]).elim [] Node.entries
      entries.foldlM
        (fun p entry => Search.searchPath m 64 false p (Raw.ofBytes entry.1)) ⟨false, false⟩
    else (if files.isEmpty then [['-']] else files).foldlM step ⟨false, false⟩
  exit (if progress.failed then 2 else if progress.found then 0 else 1)

end MergeTrial.Shell.Utility
