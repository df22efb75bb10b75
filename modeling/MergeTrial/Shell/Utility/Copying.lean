import MergeTrial.Shell.Utility.Files

/-! Programs that copy, move, link and install files. -/

namespace MergeTrial.Shell.Utility
open Work

def destinations (a : Arguments) (missing : String) : Work (List (Raw × Raw)) := do
  if a.has 'T' then
    (a.operands.drop 2).head?.forM fun extra => misuse 1 ("extra operand ".toList ++ quoted extra)
  match a.value? 't' with
  | some dir =>
    if a.operands.isEmpty then misuse 1 ("missing " ++ missing).toList
    else if ← isDir dir then return a.operands.map fun name => (name, inside dir (baseName name))
    else failWith 1 ("target directory ".toList ++ quoted dir ++ ": ".toList
      ++ (match ← nodeAt dir with
        | .error fault => fault.reason.toList
        | .ok _ => "Not a directory".toList))
  | none =>
    match a.operands.reverse with
    | [] => misuse 1 ("missing " ++ missing).toList
    | [only] => misuse 1 ("missing destination file operand after ".toList ++ quoted only)
    | target :: sources =>
      let sources := sources.reverse
      if !a.has 'T' ∧ (← isDir target) then
        return sources.map fun name => (name, inside target (baseName name))
      else
        match sources with
        | [source] => return [(source, target)]
        | _ =>
          failWith 1 ("target ".toList ++ quoted target ++ ": ".toList
            ++ (match ← nodeAt target with
              | .error fault => fault.reason.toList
              | .ok _ => "Not a directory".toList))

structure Clash where
  keeps : Bool
  asks : Bool
  saved : Option Raw

namespace Clash

def flags : List Flag :=
  [.plain 'i' ["interactive"], .plain 'b' [], .long 'b' .maybe "backup", .valued 'S' ["suffix"]]

def ofArguments (a : Arguments) (manners : String) : Clash where
  keeps := a.lastOf manners == some 'n'
  asks := a.lastOf manners == some 'i'
  saved := if a.has 'b' || a.has 'S' then some ((a.value? 'S').getD ['~']) else none

def question (force : Bool) (target : Raw) (old : Node) : Raw :=
  if old.allows .write || !old.isFile then "overwrite ".toList ++ quoted target
  else if force then
    "replace ".toList ++ quoted target ++ ", overriding mode ".toList ++ Mode.describe old.mode
  else "unwritable ".toList ++ quoted target ++ " (mode ".toList ++ Mode.digits old.mode
    ++ ", ".toList ++ Mode.text old.mode ++ "); try anyway".toList

def clear (clash : Clash) (force : Bool) (target : Raw) : Work (Option Raw) := do
  match ← entryAt target with
  | .error _ | .ok (.dir ..) => return some []
  | .ok old =>
    if !(← agreed clash.asks (question force target old)) then return none
    else
      match clash.saved with
      | none => return some []
      | some ending =>
        match ← onFiles (Machine.rename (pathOf target) (pathOf (target ++ ending))) with
        | .ok () => return some (" (backup: ".toList ++ quoted (target ++ ending) ++ [')'])
        | .error _ => return some []

end Clash

structure CopyForm where
  recursive : Bool
  links : Bool
  keepMode : Bool
  force : Bool
  verbose : Bool
  clash : Clash

def CopyForm.mode (f : CopyForm) (m : Machine) (mode : Nat) : Nat :=
  if f.keepMode then mode else m.granted (mode &&& 0o777)

def CopyForm.tell (f : CopyForm) (source target note : Raw) : Work Unit := do
  if f.verbose then sayLine (quoted source ++ " -> ".toList ++ quoted target ++ note)

def copyFile (f : CopyForm) (source target note : Raw) (node : Node) : Work Bool := do
  let m ← machine
  let fail (fault : FileFault) : Work Bool := do
    complain ((if fault = .noSpace then "error writing " else "cannot create regular file ").toList
      ++ quoted target ++ (": " ++ fault.reason).toList)
    return false
  let place (fresh : Node) : Work Bool := do
    match ← onFiles (Machine.makeEntry (pathOf target) fresh) with
    | .ok () =>
      f.tell source target note
      return true
    | .error fault => fail fault
  match node.content with
  | .error fault =>
    complain ("cannot open ".toList ++ quoted source ++ (" for reading: " ++ fault.reason).toList)
    return false
  | .ok content =>
    let fresh : Node := match node with
      | .special (.program name) => .special (.program name)
      | node => .file content (f.mode m node.mode)
    match m.resolve (pathOf target) with
    | .error fault => fail fault
    | .ok ⟨_, none⟩ =>
      if target.getLast? = some '/' then fail .notDirectory else place fresh
    | .ok ⟨_, some _⟩ =>
      match ← onFiles (Machine.writeFile (pathOf target) content) with
      | .ok () =>
        if f.keepMode then
          match m.resolve (pathOf target) with
          | .ok found =>
            let _ ← onFiles (Machine.setMode found.location node.mode)
          | .error _ => pure ()
        f.tell source target note
        return true
      | .error fault =>
        if f.force ∧ fault = .denied then
          match ← onFiles (Machine.removeFile (pathOf target)) with
          | .ok () => place fresh
          | .error _ => fail fault
        else fail fault

def copyTree (f : CopyForm) : Nat → Raw → Raw → Work Bool
  | 0, source, _ => do
    cannot "stat" source .nameTooLong
    return false
  | depth + 1, source, target => do
    let found ← if f.links then entryAt source else nodeAt source
    let old ← nodeAt target
    match found, old with
    | .error fault, _ =>
      cannot "stat" source fault
      return false
    | .ok (.dir mode entries), old =>
      if !f.recursive then
        complain ("-r not specified; omitting directory ".toList ++ quoted source)
        return false
      else
        let m ← machine
        match m.resolve (pathOf source), m.resolve (pathOf target) with
        | .ok a, .ok b =>
          if a.location.isPrefixOf b.location then
            complain ("cannot copy a directory, ".toList ++ quoted source
              ++ ", into itself, ".toList ++ quoted target)
            return false
        | _, _ => pure ()
        let made ← match old with
          | .ok (.dir ..) => pure true
          | .ok _ => do
            complain ("cannot overwrite non-directory ".toList ++ quoted target
              ++ " with directory ".toList ++ quoted source)
            pure false
          | .error _ => do
            match ← onFiles (Machine.makeDir (pathOf target) (mode ||| 0o700)) with
            | .ok () => do
              f.tell source target []
              pure true
            | .error fault => do
              complain ("cannot create directory ".toList ++ quoted target
                ++ (": " ++ fault.reason).toList)
              pure false
        if !made then return false
        else if !Right.read.isIn mode then
          complain ("cannot access ".toList ++ quoted source ++ ": Permission denied".toList)
          return false
        else
          let copied ← entries.mapM fun entry =>
            let name := Raw.ofBytes entry.1
            copyTree f depth (inside source name) (inside target name)
          return !copied.contains false
    | .ok _, .ok (.dir ..) =>
      complain ("cannot overwrite directory ".toList ++ quoted target
        ++ " with non-directory".toList)
      return false
    | .ok (.special (.link path)), _ =>
      match ← onFiles (Machine.makeEntry (pathOf target) (.special (.link path))) with
      | .ok () =>
        f.tell source target []
        return true
      | .error fault =>
        complain ("cannot create symbolic link ".toList ++ quoted target
          ++ (": " ++ fault.reason).toList)
        return false
    | .ok node, _ =>
      let m ← machine
      let same : Bool := match m.resolve (pathOf source), m.resolve (pathOf target) with
        | .ok a, .ok b => b.node.isSome && a.location == b.location
        | _, _ => false
      if same then
        complain (quoted source ++ " and ".toList ++ quoted target
          ++ " are the same file".toList)
        return false
      else
        match ← f.clash.clear f.force target with
        | none => return false
        | some note => copyFile f source target note node

def copyFlags : List Flag :=
  Clash.flags ++ [.plain 'a' ["archive"], .plain 'r' ["recursive"], .plain 'R' [], .plain 'p' [],
    .long 'p' .maybe "preserve", .plain 'f' ["force"], .plain 'n' ["no-clobber"],
    .plain 'u' ["update"], .plain 'v' ["verbose"],
    .plain 'T' ["no-target-directory"], .valued 't' ["target-directory"], .plain 'd' [],
    .plain 'P' ["no-dereference"], .plain 'L' ["dereference"], .plain 'H' [], .plain 's' [],
    .plain 'l' ["link"], .plain 'x' []]

def cp : Work Unit := do
  let a ← arguments copyFlags false 1
  let recursive := a.has 'r' || a.has 'R' || a.has 'a'
  let form : CopyForm := {
    recursive := recursive
    links := (a.has 'a' || a.has 'd' || a.has 'P' || recursive) && !a.has 'L'
    keepMode := a.has 'a' || a.has 'p'
    force := a.has 'f'
    verbose := a.has 'v'
    clash := .ofArguments a "in" }
  let pairs ← destinations a "file operand"
  let results ← pairs.mapM fun pair => do
    if form.clash.keeps ∧ (← entryAt pair.2).isOk then return true
    else copyTree form maxDepth pair.1 pair.2
  if results.contains false then exit 1

def mv : Work Unit := do
  let a ← arguments (Clash.flags ++ [.plain 'f' ["force"], .plain 'n' ["no-clobber"],
    .plain 'u' ["update"], .plain 'v' ["verbose"], .plain 'T' ["no-target-directory"],
    .valued 't' ["target-directory"]]) false 1
  let clash := Clash.ofArguments a "fin"
  let pairs ← destinations a "file operand"
  let results ← pairs.mapM fun (source, target) => do
    match ← entryAt source with
    | .error fault =>
      cannot "stat" source fault
      return false
    | .ok node =>
      let m ← machine
      let old ← entryAt target
      let same : Bool := match m.entry (pathOf source), m.entry (pathOf target) with
        | .ok x, .ok y => y.node.isSome && x.location == y.location
        | _, _ => false
      if clash.keeps ∧ old.isOk then return true
      else if same then
        complain (quoted source ++ " and ".toList ++ quoted target
          ++ " are the same file".toList)
        return false
      else
        let some note ← clash.clear true target | return false
        match ← onFiles (Machine.rename (pathOf source) (pathOf target)) with
        | .ok () =>
          if a.has 'v' then
            sayLine ("renamed ".toList ++ quoted source ++ " -> ".toList ++ quoted target ++ note)
          return true
        | .error fault =>
          let text : Raw := match fault, node.isDir with
            | .invalid, _ => "cannot move ".toList ++ quoted source
                ++ " to a subdirectory of itself, ".toList ++ quoted target
            | .isDirectory, _ => "cannot overwrite directory ".toList ++ quoted target
                ++ " with non-directory".toList
            | .notDirectory, true =>
              if old.isOk then "cannot overwrite non-directory ".toList ++ quoted target
                ++ " with directory ".toList ++ quoted source
              else "cannot move ".toList ++ quoted source ++ " to ".toList ++ quoted target
                ++ ": Not a directory".toList
            | .notEmpty, _ => "cannot overwrite ".toList ++ quoted target
                ++ ": Directory not empty".toList
            | fault, _ => "cannot move ".toList ++ quoted source ++ " to ".toList ++ quoted target
                ++ (": " ++ fault.reason).toList
          complain text
          return false
  if results.contains false then exit 1

def ln : Work Unit := do
  let a ← arguments (Clash.flags ++ [.plain 's' ["symbolic"], .plain 'f' ["force"],
    .plain 'n' ["no-dereference"], .plain 'v' ["verbose"], .plain 'T' ["no-target-directory"],
    .valued 't' ["target-directory"], .plain 'r' ["relative"]]) false 1
  let clash := Clash.ofArguments a "fi"
  let arrow := (if a.has 's' then " -> " else " => ").toList
  let kind := if a.has 's' then "symbolic link " else "hard link "
  let pairs ← match a.operands with
    | [only] =>
      if a.has 't' ∨ a.has 'T' then destinations a "file operand"
      else pure [(only, inside ['.'] (baseName only))]
    | _ => destinations a "file operand"
  let results ← pairs.mapM fun (source, target) => do
    let fail (fault : FileFault) : Work Bool := do
      complain (("failed to create " ++ kind).toList ++ quoted target
        ++ (if a.has 's' then [] else " => ".toList ++ quoted source)
        ++ (": " ++ fault.reason).toList)
      return false
    let node : Except FileFault Node ← if a.has 's' then
        pure (.ok (.special (.link (Raw.toBytes source))))
      else nodeAt source
    match node with
    | .error fault =>
      complain ("failed to access ".toList ++ quoted source ++ (": " ++ fault.reason).toList)
      return false
    | .ok (.dir ..) =>
      complain (shown source ++ ": hard link not allowed for directory".toList)
      return false
    | .ok node =>
      let asks := clash.asks && (← entryAt target).isOk
      let wanted ← agreed asks ("replace ".toList ++ quoted target)
      if !wanted then return false
      let some note ← { clash with asks := false }.clear true target | return false
      if a.has 'f' ∨ asks then
        let _ ← onFiles (Machine.removeFile (pathOf target))
      match ← onFiles (Machine.makeEntry (pathOf target) node) with
      | .ok () =>
        if a.has 'v' then sayLine (quoted target ++ arrow ++ quoted source ++ note)
        return true
      | .error fault =>
        if !a.has 's' ∧ fault = .occupied then
          complain (("failed to create " ++ kind).toList ++ quoted target
            ++ (": " ++ fault.reason).toList)
          return false
        else fail fault
  if results.contains false then exit 1

def install : Work Unit := do
  let a ← arguments (Clash.flags.drop 1 ++ [.valued 'm' ["mode"], .plain 'd' ["directory"],
    .plain 'D' [], .plain 'v' ["verbose"], .plain 'C' ["compare"], .plain 'c' [], .plain 'p' [],
    .plain 's' [], .plain 'T' ["no-target-directory"], .valued 't' ["target-directory"],
    .valued 'o' ["owner"], .valued 'g' ["group"]]) false 1
  let mode ← match a.value? 'm' with
    | none => pure 0o755
    | some text =>
      match Mode.change? text 0 false 0 with
      | some mode => pure mode
      | none => failWith 1 ("invalid mode ".toList ++ quoted text)
  let setMode (name : Raw) : Work Unit := do
    match (← machine).resolve (pathOf name) with
    | .ok place =>
      let _ ← onFiles (Machine.setMode place.location mode)
    | .error _ => pure ()
  let tell (path : Raw) : Work Unit := do
    if a.has 'v' then sayLine ((← Work.name) ++ ": creating directory ".toList ++ quoted path)
  if a.has 'd' then
    if a.operands.isEmpty then misuse 1 "missing file operand".toList
    forEach a.operands fun name => do
      let made ← makeDirs true tell name
      if made then setMode name
      return made
  else
    if a.has 'D' then
      match a.value? 't', a.operands.reverse with
      | some dir, _ =>
        if !(← makeDirs true tell dir) then exit 1
      | none, target :: _ =>
        if !(← makeDirs true tell (dirName target)) then exit 1
      | none, [] => pure ()
    let pairs ← destinations a "file operand"
    let form : CopyForm := ⟨false, false, true, true, a.has 'v', .ofArguments a ""⟩
    let results ← pairs.mapM fun (source, target) => do
      match ← nodeAt source with
      | .error fault =>
        cannot "stat" source fault
        return false
      | .ok (.dir ..) =>
        complain ("omitting directory ".toList ++ quoted source)
        return false
      | .ok node =>
        if (← isDir target) then
          complain ("cannot overwrite directory ".toList ++ quoted target
            ++ " with non-directory".toList)
          return false
        else
          let some note ← form.clash.clear true target | return false
          let removed ← onFiles (Machine.removeFile (pathOf target))
          if removed.isOk ∧ a.has 'v' then sayLine ("removed ".toList ++ quoted target)
          let copied ← copyFile form source target note node
          if copied then setMode target
          return copied
    if results.contains false then exit 1

end MergeTrial.Shell.Utility
