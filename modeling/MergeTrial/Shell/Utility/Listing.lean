import MergeTrial.Shell.Utility.Files

/-! Programs that list files and tell their paths. -/

namespace MergeTrial.Shell.Utility
open Work

def markOf (classify dirs : Bool) (node : Node) : Raw :=
  match node with
  | .dir .. => if classify || dirs then ['/'] else []
  | .special (.link _) => if classify then ['@'] else []
  | node => if classify && node.isExecutable then ['*'] else []

def sizeOf (node : Node) : Nat := Condition.Facts.size node

def blocksOf (node : Node) : Nat :=
  match node with
  | .dir .. | .file .. => (sizeOf node + 4095) / 4096 * 4
  | .special _ => 0

inductive Layout where
  | lines
  | long
  | commas
  | columns (acrossRows : Bool)
  deriving DecidableEq

structure ListForm where
  layout : Layout
  all : Bool
  almostAll : Bool
  classify : Bool
  marksDirs : Bool
  reverse : Bool
  bySize : Bool
  unsorted : Bool
  recursive : Bool
  quotes : Bool
  blocks : Bool
  showsOwner : Bool
  showsGroup : Bool
  numeric : Bool

namespace ListForm

def arrange (f : ListForm) (entries : List (Raw × Node)) : List (Raw × Node) :=
  let byName := if f.unsorted then entries else entries.mergeSort fun a b => Raw.le a.1 b.1
  let sorted := if f.bySize then byName.mergeSort fun a b => sizeOf b.2 ≤ sizeOf a.2 else byName
  if f.reverse then sorted.reverse else sorted

def name (f : ListForm) (name : Raw) : Raw :=
  let escaped (c : Char) : Raw :=
    if c = '"' ∨ c = '\\' then ['\\', c] else if isOdd c then escape c else [c]
  if f.quotes then '"' :: name.flatMap escaped ++ ['"'] else name

def label (f : ListForm) (entry : Raw × Node) : Raw :=
  f.name entry.1 ++ markOf f.classify f.marksDirs entry.2

def aligned (texts : List Raw) : List Raw :=
  texts.map (Raw.padStart (texts.foldl (fun width text => max width text.length) 0))

def labels (f : ListForm) (entries : List (Raw × Node)) : List Raw :=
  if f.blocks then
    ((aligned (entries.map fun entry => Raw.ofNat (blocksOf entry.2))).zip entries).map
      fun (blocks, entry) => blocks ++ ' ' :: f.label entry
  else entries.map f.label

def kindOf : Node → Char
  | .dir .. => 'd'
  | .special (.link _) => 'l'
  | .file .. | .special (.program _) => '-'
  | .special _ => 'c'

def namesOf (node : Node) : Nat :=
  if node.isDir then 2 + node.entries.countP (·.2.isDir) else 1

def longLines (f : ListForm) (entries : List (Raw × Node)) : Raw :=
  let mode (node : Node) : Raw :=
    kindOf node :: Mode.text (if kindOf node = 'l' then 0o777 else node.mode)
  let user : Raw := if f.numeric then " 0".toList else " root".toList
  let target (node : Node) : Raw := match node with
    | .special (.link path) => " -> ".toList ++ Raw.ofBytes path
    | _ => []
  let counts := aligned (entries.map fun entry => Raw.ofNat (namesOf entry.2))
  let sizes := aligned (entries.map fun entry => Raw.ofNat (sizeOf entry.2))
  ((entries.zip (f.labels entries)).zip (counts.zip sizes)).flatMap
    fun ((entry, label), (count, size)) =>
      mode entry.2 ++ ' ' :: count ++ (if f.showsOwner then user else [])
        ++ (if f.showsGroup then user else []) ++ ' ' :: size ++ " Jan  1 00:00 ".toList ++ label
        ++ target entry.2 ++ ['\n']

def lineWidth : Nat := 80

def commaText : Nat → List Raw → Raw
  | _, [] => ['\n']
  | _, [last] => last ++ ['\n']
  | column, label :: next :: rest =>
    let after := column + label.length
    let fits := after + next.length + 2 < lineWidth
    label ++ ',' :: (if fits then ' ' else '\n')
      :: commaText (if fits then after + 2 else 0) (next :: rest)

def columnOf (acrossRows : Bool) (total columns place : Nat) : Nat :=
  if acrossRows then place % columns else place / ((total + columns - 1) / columns)

def widths (acrossRows : Bool) (labels : List Raw) (columns : Nat) : List Nat :=
  (List.range columns).map fun column =>
    labels.zipIdx.foldl (fun width (label, place) =>
      if columnOf acrossRows labels.length columns place = column then
        max width (label.length + if column + 1 = columns then 0 else 2)
      else width) 3

def gap : Nat → Nat → Nat → Raw
  | 0, _, _ => []
  | n + 1, first, last =>
    if last ≤ first then []
    else if (first + 1) / 8 < last / 8 then '\t' :: gap n (first + 8 - first % 8) last
    else ' ' :: gap n (first + 1) last

def rowText : Nat → List (Raw × Nat) → Raw
  | _, [] => ['\n']
  | _, [(label, _)] => label ++ ['\n']
  | column, (label, width) :: rest =>
    label ++ gap width (column + label.length) (column + width) ++ rowText (column + width) rest

def columnText (acrossRows : Bool) (labels : List Raw) : Raw :=
  let total := labels.length
  let fits (columns : Nat) : Bool :=
    (widths acrossRows labels columns).foldl (· + ·) 0 < lineWidth
  let columns := (((List.range (min total 27)).map (· + 1)).reverse.find? fits).getD 1
  let rows := (total + columns - 1) / columns
  (List.range rows).flatMap fun row =>
    let places := (List.range columns).map fun column =>
      if acrossRows then row * columns + column else column * rows + row
    rowText 0 ((places.filterMap (labels[·]?)).zip (widths acrossRows labels columns))

def text (f : ListForm) (entries : List (Raw × Node)) : Raw :=
  let entries := f.arrange entries
  if entries.isEmpty then []
  else match f.layout with
    | .lines => Raw.unlines (f.labels entries)
    | .long => f.longLines entries
    | .commas => commaText 0 (f.labels entries)
    | .columns acrossRows => columnText acrossRows (f.labels entries)

def total (f : ListForm) (entries : List (Raw × Node)) : Raw :=
  if f.blocks || f.layout = .long then
    let sum := entries.foldl (fun sum entry => sum + blocksOf entry.2) 0
    "total ".toList ++ Raw.ofNat sum ++ ['\n']
  else []

def visible (f : ListForm) (node parent : Node) : List (Raw × Node) :=
  let named := node.entries.map fun entry => (Raw.ofBytes entry.1, entry.2)
  if f.all then (['.'], node) :: (['.', '.'], parent) :: named
  else if f.almostAll then named
  else named.filter fun entry => entry.1.head? != some '.'

def directory (f : ListForm) (titled : Bool) : Nat → Raw → Node → Node → Raw
  | 0, _, _, _ => []
  | depth + 1, name, node, parent =>
    let shown := f.visible node parent
    let below := if f.recursive then
        (f.arrange shown).flatMap fun entry =>
          if entry.1 = ['.'] ∨ entry.1 = ['.', '.'] ∨ !entry.2.isDir then []
          else '\n' :: directory f true depth (inside name entry.1) entry.2 node
      else []
    (if titled then f.name name ++ [':', '\n'] else []) ++ f.total shown ++ f.text shown
      ++ below

end ListForm

def ls : Work Unit := do
  let a ← arguments ([.plain 'a' ["all"], .plain 'A' ["almost-all"], .plain 'd' ["directory"],
    .plain 'F' ["classify"], .plain 'r' ["reverse"], .plain 'R' ["recursive"],
    .long 'Z' .maybe "color"] ++ Flag.letters "1lpSUftchiknqsuvxXCGLHNBQbgmo") false 2
  let layouts : List Layout := a.options.filterMap fun option =>
    match option.1 with
    | 'l' | 'n' | 'g' | 'o' => some Layout.long
    | 'm' => some .commas
    | 'C' => some (.columns false)
    | 'x' => some (.columns true)
    | '1' => some .lines
    | _ => none
  let form : ListForm := {
    layout := match layouts.reverse with
      | .lines :: rest => if rest.contains .long then .long else .lines
      | layout :: _ => layout
      | [] => .lines
    quotes := a.has 'Q'
    blocks := a.has 's'
    showsOwner := !a.has 'g'
    showsGroup := !a.has 'o' && !a.has 'G'
    numeric := a.has 'n'
    all := a.has 'a' || a.has 'f'
    almostAll := a.has 'A'
    classify := a.has 'F'
    marksDirs := a.has 'p'
    reverse := a.has 'r'
    bySize := a.has 'S'
    unsorted := a.has 'U' || a.has 'f'
    recursive := a.has 'R' }
  let operands := if a.operands.isEmpty then [['.']] else a.operands
  let follows := !(a.has 'd' || a.has 'F' || form.layout == .long) || a.has 'L' || a.has 'H'
  let found ← operands.mapM fun name => do
    return (name, ← if follows then nodeAt name else entryAt name)
  let failed := found.filterMap fun entry =>
    match entry.2 with
    | .error fault => some (entry.1, fault)
    | .ok _ => none
  failed.forM fun entry => cannot "access" entry.1 entry.2
  let nodes := found.filterMap fun entry => entry.2.toOption.map fun node => (entry.1, node)
  let (dirs, files) := nodes.partition fun entry => entry.2.isDir && !a.has 'd'
  if !files.isEmpty then say (form.text files)
  let titled := 1 < operands.length || form.recursive
  let mut first := files.isEmpty
  let mut readable := true
  for (name, node) in form.arrange dirs do
    if !node.allows .read then
      complain ("cannot open directory ".toList ++ quoted name ++ ": Permission denied".toList)
      readable := false
    else
      if !first then say ['\n']
      first := false
      let parent := (← nodeAt (inside name "..".toList)).toOption.getD Node.newDir
      say (form.directory titled maxDepth name node parent)
  if !failed.isEmpty ∨ !readable then exit 2

/-! Paths of files -/

def pwd : Work Unit := do
  let _ ← arguments [.plain 'L' ["logical"], .plain 'P' ["physical"]] false 1
  sayLine (Raw.ofBytes (← machine).cwdPath)

def slashed (name : Raw) : Bool := name.getLast? == some '/'

def readlink : Work Unit := do
  let a ← arguments [.plain 'f' ["canonicalize"], .plain 'e' ["canonicalize-existing"],
    .plain 'm' ["canonicalize-missing"], .plain 'n' ["no-newline"], .plain 'q' [], .plain 's' [],
    .plain 'v' [], .plain 'z' []] false 1
  if a.operands.isEmpty then misuse 1 "missing operand".toList
  let lineEnd : Raw := if a.has 'n' && a.operands.length = 1 then [] else ['\n']
  forEach a.operands fun name => do
    let m ← machine
    if a.has 'f' ∨ a.has 'e' ∨ a.has 'm' then
      match m.resolve (pathOf (withoutSlashes name)) with
      | .ok ⟨location, node⟩ =>
        if a.has 'e' ∧ node.isNone ∨ slashed name ∧ node.any (!·.isDir) then return false
        else
          say (Raw.ofBytes (Machine.pathOf location) ++ lineEnd)
          return true
      | .error _ => return false
    else
      match ← entryAt name with
      | .ok (.special (.link target)) =>
        say (Raw.ofBytes target ++ lineEnd)
        return true
      | _ => return false

def realpath : Work Unit := do
  let a ← arguments [.plain 'e' ["canonicalize-existing"], .plain 'm' ["canonicalize-missing"],
    .plain 'q' ["quiet"], .plain 's' ["strip", "no-symlinks"], .plain 'z' ["zero"],
    .plain 'L' [], .plain 'P' []] false 1
  if a.operands.isEmpty then misuse 1 "missing operand".toList
  forEach a.operands fun name => do
    match (← machine).resolve (pathOf (withoutSlashes name)) with
    | .ok ⟨location, node⟩ =>
      if a.has 'e' ∧ node.isNone then
        refuse name .missing
        return false
      else if slashed name ∧ node.any (!·.isDir) then
        refuse name .notDirectory
        return false
      else
        sayLine (Raw.ofBytes (Machine.pathOf location))
        return true
    | .error fault =>
      refuse name fault
      return false

def mktemp : Work Unit := do
  let a ← arguments [.plain 'd' ["directory"], .plain 'u' ["dry-run"], .plain 'q' ["quiet"],
    .plain 't' [], .valued 'p' [], .long 'p' .maybe "tmpdir", .long 'S' .value "suffix"] false 1
  let dir := ((a.value? 'p').filter (!·.isEmpty)).getD ((← valueOf? "TMPDIR".toList).getD
    "/tmp".toList)
  let template := a.operands.headD "tmp.XXXXXXXXXX".toList
  let places := (template.reverse.takeWhile (· == 'X')).length
  if places < 3 then failWith 1 ("too few X's in template ".toList ++ quoted template)
  let path := if a.operands.isEmpty || a.has 'p' || a.has 't' then inside dir template else template
  let m ← machine
  let named (n : Nat) : Raw :=
    let digits := Raw.ofNat n
    path.take (path.length - places) ++ List.replicate (places - digits.length) 'k' ++ digits
      ++ (a.value? 'S').getD []
  let free := ((List.range 1000).map named).find? fun name => (m.node? (pathOf name)).isNone
  let name := free.getD path
  let result ← if a.has 'u' then pure (.ok ())
    else if a.has 'd' then onFiles (Machine.makeDir (pathOf name) 0o700)
    else onFiles (Machine.makeEntry (pathOf name) (.file [] 0o600))
  match result with
  | .ok () => sayLine name
  | .error fault =>
    failWith 1 ((if a.has 'd' then "failed to create directory via template "
      else "failed to create file via template ").toList ++ quoted path
      ++ (": " ++ fault.reason).toList)

end MergeTrial.Shell.Utility
