import MergeTrial.FileTree.Edit
import MergeTrial.Shell.Editor.Script
import MergeTrial.Shell.Utility.Options

/-! Carrying out editing scripts. Lines are read into a space that the instructions work on; at the
end of the script the space is printed and the next line is read. -/

namespace MergeTrial.Shell.Editor

/-- A line, and whether its end has been read too. -/
structure Line where
  text : Raw
  ended : Bool

/-- What is written to a file, the last first, and whether the last line still lacks its end. -/
structure Output where
  texts : List Raw
  unfinished : Bool

def Output.text (o : Output) : Raw := o.texts.reverse.flatten

inductive Phase where
  | waiting
  | inside (last : Option Nat)
  | complete
  deriving DecidableEq

/-- What is printed before the next line is read. -/
inductive Addition where
  | text (text : Raw)
  | line (line : Line)
  | file (path : Raw)

structure Manner where
  script : Script
  separate : Bool
  inPlace : Option Raw
  ending : Char
  width : Nat
  place : Raw

structure State where
  space : Line
  held : Line
  number : Nat
  replaced : Bool
  additions : List Addition
  phases : Array Phase
  form : Option Form
  -- the file that was opened last, what is left of it, and whether no line of it has been read
  name : Raw
  lines : List Line
  fresh : Bool
  files : List Raw
  output : Output
  aside : Bool
  edited : Option (Raw × Output)
  others : List (Raw × Output)
  sources : List (Raw × List Line)
  status : Nat

abbrev Edit (α : Type) := StateT State Work α

inductive Outcome where
  | goOn (place : Nat)
  | done
  | dropped
  | again
  | quit (status : Nat) (prints : Bool)

/-! Texts -/

def Case.apply : Case → Char → Char
  | .kept, c => c
  | .lower, c => c.toLower
  | .upper, c => c.toUpper

def Shift.apply (s : Shift) : Raw → Raw
  | [] => []
  | c :: rest => (if s.first = .kept then s.all else s.first).apply c :: rest.map s.all.apply

def expand (group : Nat → Raw) : Case → List Piece → Raw
  | _, [] => []
  | pending, piece :: rest =>
    let shift := if piece.shift.first = .kept then { piece.shift with first := pending }
      else piece.shift
    let after := if piece.text.isEmpty then shift else { shift with first := .kept }
    let filling := (piece.group.map group).getD []
    let waits := piece.group.isSome && filling.isEmpty && piece.shift.first != .kept
    shift.apply piece.text ++ after.apply filling
      ++ expand group (if waits then after.first else .kept) rest

/-- What replaces the matches from a place on, and how many there are; `count` matches come before
it, and `last` is where the last one ends. -/
def replaceFrom (s : Substitution) (form : Form) (subject : Regex.Subject) :
    Nat → Nat → Nat → Option Nat → Raw × Bool
  | 0, _, _, _ => ([], false)
  | fuel + 1, start, count, last =>
    let part (first finish : Nat) : Raw := (subject.chars.extract first finish).toList
    let size := subject.chars.size
    match if size < start then none else form.regex.find? subject start with
    | none => (part start size, false)
    | some (first, cursor) =>
      let finish := cursor.place
      let isEmpty := first == finish
      let lead := part start first
      let next (count : Nat) : Raw × Bool :=
        let more := replaceFrom s form subject fuel (if isEmpty then first + 1 else finish) count
          (some finish)
        (if isEmpty then part first (first + 1) ++ more.1 else more.1, more.2)
      if isEmpty && last == some first then
        let more := next count
        (lead ++ more.1, more.2)
      else if count + 1 < s.first then
        let more := next (count + 1)
        (lead ++ part first finish ++ more.1, more.2)
      else
        let group (n : Nat) : Raw :=
          if n = 0 then part first finish
          else match cursor.groups.lookup n with
            | some (first, finish) => part first finish
            | none => []
        let made := expand group .kept s.replacement
        if s.everywhere then (lead ++ made ++ (next (count + 1)).1, true)
        else (lead ++ made ++ part finish size, true)

def substituted? (s : Substitution) (form : Form) (text : Raw) : Option Raw :=
  let (made, replaced) :=
    replaceFrom s form ⟨text.toArray, form.fold⟩ (text.length + 2) 0 0 none
  if replaced then some made else none

def visible (c : Char) : Raw :=
  if c = '\\' then ['\\', '\\'] else if 32 ≤ c.toNat ∧ c.toNat < 127 then [c] else Work.escape c

def visibleLines (ending : Char) (width : Nat) (text : Raw) : Raw :=
  let step (state : List Raw × Nat) (c : Char) : List Raw × Nat :=
    let shown := visible c
    if 0 < width ∧ width - 1 < state.2 + shown.length then
      ((['\\', ending] ++ shown) :: state.1, shown.length)
    else (shown :: state.1, state.2 + shown.length)
  (text.foldl step ([], 0)).1.reverse.flatten ++ ['$', ending]

def linesOf (ending : Char) (text : Raw) : List Line :=
  match (Raw.splitOn ending text).reverse with
  | [] => []
  | last :: rest =>
    let ended := rest.reverse.map fun line => Line.mk line true
    if last.isEmpty then ended else ended ++ [⟨last, false⟩]

/-! Output -/

namespace Output

def empty : Output := ⟨[], false⟩

def add (ending : Char) (text : Raw) (o : Output) : Output :=
  ⟨text :: (if o.unfinished then [ending] :: o.texts else o.texts), false⟩

def addLine (ending : Char) (line : Line) (o : Output) : Output :=
  let written := o.add ending line.text
  if line.ended then written.add ending [ending] else { written with unfinished := true }

end Output

def work {α : Type} (action : Work α) : Edit α := StateT.lift action

def printing (change : Output → Output) : Edit Unit := modify fun s =>
  match s.edited with
  | some (path, output) => { s with edited := some (path, change output) }
  | none => { s with output := change s.output }

def writing (target : Target) (change : Output → Output) : Edit Unit := do
  match target with
  | .output => modify fun s =>
    let made := change { s.output with unfinished := s.aside }
    { s with output := { s.output with texts := made.texts }, aside := made.unfinished }
  | .errors =>
    let _ ← work (Work.write 2 (change .empty).text)
  | .file path => modify fun s =>
    { s with others := s.others.map fun entry =>
        if entry.1 = path then (path, change entry.2) else entry }

def flush : Edit Unit := do
  let s ← get
  set { s with output := { s.output with texts := [] } }
  work (Work.say s.output.text)

def writeAll : Edit Unit := do
  let s ← get
  flush
  s.others.forM fun (path, output) => do
    let _ ← work (Work.writeFile path output.text)

def breakOff {α : Type} (status : Nat) (message : Raw) : Edit α := do
  work (Work.complain message)
  writeAll
  work (Work.exit status)

def backupName (suffix path : Raw) : Raw :=
  let base := (path.reverse.takeWhile (· != '/')).reverse
  let dir := path.take (path.length - base.length)
  let name := if suffix.contains '*' then suffix.flatMap fun c => if c = '*' then base else [c]
    else base ++ suffix
  if name.contains '/' then name else dir ++ name

def replaceFile (suffix : Raw) : Edit Unit := do
  match (← get).edited with
  | none => return ()
  | some (path, output) =>
    modify fun s => { s with edited := none }
    let path := Raw.toBytes path
    let mode := (((← work Work.machine).node? path).map Node.mode).getD 0o644
    let file : Node := .file (Raw.toBytes output.text) mode
    let _ ← work (Work.onFiles do
      if suffix.isEmpty then Machine.removeFile path
      else Machine.rename path (Raw.toBytes (backupName suffix (Raw.ofBytes path)))
      Machine.makeEntry path file)

def printAdditions (m : Manner) : Edit Unit := do
  let additions := (← get).additions.reverse
  modify fun s => { s with additions := [] }
  additions.forM fun addition => do
    match addition with
    | .text text => printing (Output.add m.ending text)
    | .line line =>
      printing (Output.add m.ending (if line.ended then line.text ++ [m.ending] else line.text))
    | .file path =>
      match ← work (Work.readOperand (if path = "/dev/stdin".toList then ['-'] else path)) with
      | .ok text => printing (Output.add m.ending text)
      | .error .isDirectory => breakOff 4 ("read error on ".toList ++ path
          ++ Raw.ofString (": " ++ FileFault.isDirectory.reason))
      | .error _ => printing (Output.add m.ending [])

/-! Input -/

def initialPhases (script : Script) : Array Phase :=
  script.instructions.map fun i =>
    match i.extent with
    | .range (.line 0) _ => .inside none
    | _ => .waiting

def openFiles (m : Manner) : List Raw → Edit Unit
  | [] => return ()
  | path :: rest => do
    modify fun s => { s with name := path, files := rest }
    let miss (status : Nat) (message : Raw) : Edit Unit := do
      work (Work.complain message)
      modify fun s => { s with status := max s.status status }
      openFiles m rest
    let isDir := (← work Work.machine).hasDir (Raw.toBytes path)
    if m.inPlace.isSome && isDir then
      miss 4 ("couldn't edit ".toList ++ path ++ ": not a regular file".toList)
    else
      let content ← work (if m.inPlace.isSome then Work.readFile path else Work.readOperand path)
      match content with
      | .error .isDirectory => breakOff 4 ("read error on ".toList ++ path
          ++ Raw.ofString (": " ++ FileFault.isDirectory.reason))
      | .error fault =>
        miss 2 ("can't read ".toList ++ path ++ Raw.ofString (": " ++ fault.reason))
      | .ok text =>
        match m.inPlace with
        | some suffix =>
          replaceFile suffix
          modify fun s => { s with edited := some (path, .empty) }
        | none => pure ()
        match linesOf m.ending text with
        | [] => openFiles m rest
        | lines => modify fun s => { s with lines := lines, fresh := true }

def isLast (m : Manner) : Edit Bool := do
  if !(← get).lines.isEmpty then return false
  else if m.separate then return true
  else
    openFiles m (← get).files
    return (← get).lines.isEmpty

/-- Reads the next line into the space, or adds it there; says whether there was one. -/
def readLine (m : Manner) (adds : Bool) : Edit Bool := do
  printAdditions m
  if (← get).lines.isEmpty then openFiles m (← get).files
  let s ← get
  match s.lines with
  | [] => return false
  | line :: lines =>
    let restarts := s.fresh && m.separate
    set { s with
      space := if adds then ⟨s.space.text ++ m.ending :: line.text, line.ended⟩ else line
      number := if restarts then 1 else s.number + 1
      phases := if restarts then initialPhases m.script else s.phases
      replaced := false
      lines := lines
      fresh := false }
    return true

/-! Addresses -/

def formOf (m : Manner) (form : Option Form) : Edit Form := do
  match form <|> (← get).form with
  | some form =>
    modify fun s => { s with form := some form }
    return form
  | none =>
    let name ← work Work.name
    let _ ← work (Work.write 2
      (name ++ ": ".toList ++ m.place ++ ": no previous regular expression\n".toList))
    writeAll
    work (Work.exit 1)

def Address.holds (m : Manner) : Address → Edit Bool
  | .line n => do return (← get).number == n
  | .step first gap => do
    let number := (← get).number
    return first ≤ number && (number - first) % gap == 0
  | .last => isLast m
  | .matching form => do
    let form ← formOf m form
    let text := (← get).space.text
    return (form.regex.find? ⟨text.toArray, form.fold⟩ 0).isSome

def setPhase (index : Nat) (phase : Phase) : Edit Unit := modify fun s =>
  { s with phases := s.phases.setIfInBounds index phase }

def startsRange (m : Manner) (index : Nat) (first : Address) (last : Limit) : Edit Bool := do
  let number := (← get).number
  let reached ← match first with
    | .line n => pure (decide (n ≤ number))
    | _ => first.holds m
  if !reached then return false
  else match last with
    | .at (.line n) =>
      if number < n then
        setPhase index (.inside (some n))
        return true
      else match first with
        | .line start => return number == n || number == start
        | _ => return true
    | .after count =>
      setPhase index (.inside (some (number + count)))
      return true
    | .multiple factor =>
      setPhase index (.inside (some ((number / factor + 1) * factor)))
      return true
    | _ =>
      setPhase index (.inside none)
      return true

def Extent.holds (m : Manner) (index : Nat) : Extent → Edit Bool
  | .all => return true
  | .one address => address.holds m
  | .range first last => do
    let afterwards : Phase := match first with
      | .line _ => .complete
      | _ => .waiting
    match (← get).phases.getD index .waiting with
    | .complete => return false
    | .waiting => startsRange m index first last
    | .inside (some n) =>
      let number := (← get).number
      if n ≤ number then setPhase index afterwards
      match last with
      | .at _ => return number ≤ n
      | _ => return true
    | .inside none =>
      match last with
      | .at address => if ← address.holds m then setPhase index afterwards
      | _ => pure ()
      return true

/-! Instructions -/

def autoPrint (m : Manner) : Edit Unit := do
  if !m.script.silent then printing (Output.addLine m.ending (← get).space)

def firstLine (m : Manner) (line : Line) : Line × Option Raw :=
  match line.text.dropWhile (· != m.ending) with
  | _ :: rest => (⟨line.text.takeWhile (· != m.ending), true⟩, some rest)
  | [] => (line, none)

def outputOf (command : Raw) : Edit Raw := do
  flush
  work do
    let setting ← read
    let (reader, writer) ← Work.world World.addPipe
    let table := (1, writer) :: setting.process.table.filter (·.1 != 1)
    let _ ← Work.startFile (Bytes.ofString "/bin/sh")
      { setting.process with name := "sh".toList, args := ["-c".toList, command], table := table }
    match ← Work.world (World.readStream reader) with
    | .ok text => return text
    | .error _ => return []

def evaluate (m : Manner) (ended : Bool) : Edit Unit := do
  let text ← outputOf (← get).space.text
  let text := if text.getLast? = some m.ending then text.dropLast else text
  modify fun s => { s with space := ⟨text, ended⟩ }

def substitute (m : Manner) (s : Substitution) : Edit Unit := do
  let form ← formOf m s.form
  match substituted? s form (← get).space.text with
  | none => return ()
  | some text =>
    modify fun state => { state with space := { state.space with text := text }, replaced := true }
    if s.evaluates then evaluate m (← get).space.ended
    let space := (← get).space
    if s.prints then printing (Output.addLine m.ending space)
    match s.target with
    | some target => writing target (Output.addLine m.ending space)
    | none => return ()

def nextOf (m : Manner) (path : Raw) : Edit (Option Line) := do
  let lines ← match (← get).sources.lookup path with
    | some lines => pure lines
    | none =>
      match ← work (Work.readOperand (if path = "/dev/stdin".toList then ['-'] else path)) with
      | .ok text => pure (linesOf m.ending text)
      | .error .isDirectory => breakOff 4 ("read error on ".toList ++ path
          ++ Raw.ofString (": " ++ FileFault.isDirectory.reason))
      | .error _ => pure []
  modify fun s => { s with
    sources := (path, lines.tail) :: s.sources.filter (·.1 != path) }
  return lines.head?

def add (addition : Addition) : Edit Unit := modify fun s =>
  { s with additions := addition :: s.additions }

def closed (m : Manner) (text : Raw) : Raw :=
  if text.isEmpty then [] else text.dropLast ++ [m.ending]

def carryOut (m : Manner) (index : Nat) (action : Action) : Edit Outcome := do
  let next := Outcome.goOn (index + 1)
  match action with
  | .block _ => return next
  | .append text =>
    add (.text text)
    return next
  | .insert text =>
    printing (Output.add m.ending (closed m text))
    return next
  | .change text =>
    match (← get).phases.getD index .waiting with
    | .inside _ => return .dropped
    | _ =>
      printing (Output.add m.ending (closed m text))
      return .dropped
  | .jump label => return .goOn (m.script.placeOf label)
  | .jumpIf label =>
    let replaced := (← get).replaced
    modify fun s => { s with replaced := false }
    return if replaced then .goOn (m.script.placeOf label) else next
  | .jumpUnless label =>
    let replaced := (← get).replaced
    modify fun s => { s with replaced := false }
    return if replaced then next else .goOn (m.script.placeOf label)
  | .delete => return .dropped
  | .deleteFirst =>
    match firstLine m (← get).space with
    | (_, some rest) =>
      modify fun s => { s with space := { s.space with text := rest } }
      return .again
    | _ => return .dropped
  | .execute [] =>
    evaluate m true
    return next
  | .execute command =>
    let text ← outputOf command
    printing (Output.add m.ending text)
    return next
  | .showName =>
    let name := (← get).name
    printing (Output.add m.ending (name ++ [m.ending]))
    return next
  | .recall =>
    modify fun s => { s with space := s.held }
    return next
  | .recallMore =>
    modify fun s => { s with
      space := ⟨s.space.text ++ m.ending :: s.held.text, s.held.ended⟩ }
    return next
  | .hold =>
    modify fun s => { s with held := s.space }
    return next
  | .holdMore =>
    modify fun s => { s with
      held := ⟨s.held.text ++ m.ending :: s.space.text, s.space.ended⟩ }
    return next
  | .exchange =>
    modify fun s => { s with space := s.held, held := s.space }
    return next
  | .list width =>
    let shown := visibleLines m.ending (width.getD m.width) (← get).space.text
    printing (Output.add m.ending shown)
    return next
  | .next =>
    if ← isLast m then return .done
    autoPrint m
    return if ← readLine m false then next else .dropped
  | .nextMore =>
    if ← isLast m then return .done
    return if ← readLine m true then next else .done
  | .print =>
    printing (Output.addLine m.ending (← get).space)
    return next
  | .printFirst =>
    printing (Output.addLine m.ending (firstLine m (← get).space).1)
    return next
  | .number =>
    let number := Raw.ofNat (← get).number
    printing (Output.add m.ending (number ++ [m.ending]))
    return next
  | .quit status => return .quit status true
  | .leave status => return .quit status false
  | .read path =>
    add (.file path)
    return next
  | .readLine path =>
    match ← nextOf m path with
    | some line => add (.line line)
    | none => pure ()
    return next
  | .write target =>
    writing target (Output.addLine m.ending (← get).space)
    return next
  | .writeFirst target =>
    writing target (Output.addLine m.ending (firstLine m (← get).space).1)
    return next
  | .substitute s =>
    substitute m s
    return next
  | .exchangeChars pairs =>
    modify fun s => { s with
      space := { s.space with text := s.space.text.map fun c => (pairs.lookup c).getD c } }
    return next
  | .clear =>
    modify fun s => { s with space := { s.space with text := [] } }
    return next

/-- Carries out the instructions from a place on. A script that takes too many steps for one line is
taken to run without end. -/
def instructionsFrom (m : Manner) : Nat → Nat → Edit Outcome
  | 0, _ => do
    work (Work.waitUntil (1 <<< 60))
    return .dropped
  | fuel + 1, index => do
    match m.script.instructions[index]? with
    | none => return .done
    | some i =>
      let selected := (← i.extent.holds m index) != i.negated
      match selected, i.action with
      | true, action =>
        match ← carryOut m index action with
        | .goOn place => instructionsFrom m fuel place
        | outcome => return outcome
      | false, .block finish => instructionsFrom m fuel finish
      | false, _ => instructionsFrom m fuel (index + 1)

def maxSteps : Nat := 20000

def cycles (m : Manner) : Nat → Edit Nat
  | 0 => do
    work (Work.waitUntil (1 <<< 60))
    return 0
  | fuel + 1 => do
    match ← instructionsFrom m maxSteps 0 with
    | .quit status prints =>
      if prints then
        autoPrint m
        printAdditions m
        printing (Output.add m.ending [])
      return status
    | .again => cycles m fuel
    | .dropped => if ← readLine m false then cycles m fuel else return 0
    | _ =>
      autoPrint m
      if ← readLine m false then cycles m fuel else return 0

def maxCycles : Nat := 1000000

def openTargets (targets : List Raw) : Work (List (Raw × Output)) :=
  targets.mapM fun path => do
    match ← Work.writeFile path [] with
    | .ok () => return (path, Output.empty)
    | .error fault =>
      Work.failWith 4 ("couldn't open file ".toList ++ path ++ Raw.ofString (": " ++ fault.reason))

def edit (m : Manner) (files : List Raw) : Work Unit := do
  let others ← openTargets m.script.targets
  let initial : State :=
    { space := ⟨[], true⟩, held := ⟨[], true⟩, number := 0, replaced := false, additions := []
      phases := initialPhases m.script, form := none, name := ['-'], lines := []
      fresh := false, files := files, output := .empty, aside := false, edited := none, others := others
      sources := [], status := 0 }
  let whole : Edit Nat := do
    let status ← if ← readLine m false then cycles m maxCycles else pure 0
    match m.inPlace with
    | some suffix => replaceFile suffix
    | none => pure ()
    writeAll
    let s ← get
    return if s.status = 0 then status else s.status
  let (status, _) ← whole.run initial
  if status ≠ 0 then Work.exit status

end MergeTrial.Shell.Editor
