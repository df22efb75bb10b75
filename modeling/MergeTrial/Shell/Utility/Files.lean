import MergeTrial.FileTree.Edit
import MergeTrial.Shell.Mode
import MergeTrial.Shell.Utility.Words

/-! Programs that make and remove files and directories and change their attributes. -/

namespace MergeTrial.Shell.Utility
open Work

def pathOf (name : Raw) : Path := Raw.toBytes name

def inside (dir name : Raw) : Raw :=
  if dir.getLast? == some '/' then dir ++ name else dir ++ '/' :: name

def nodeAt (name : Raw) : Work (Except FileFault Node) := do
  return (← machine).open? (pathOf name)

def entryAt (name : Raw) : Work (Except FileFault Node) := do
  match (← machine).entry (pathOf name) with
  | .error fault => return .error fault
  | .ok place => return match place.node with
    | some node => .ok node
    | none => .error .missing

def isDir (name : Raw) : Work Bool := do return (← machine).hasDir (pathOf name)

def confirms (question : Raw) : Work Bool := do
  let _ ← write 2 ((← Work.name) ++ ": ".toList ++ question ++ "? ".toList)
  match ← stream? 0 with
  | none => return false
  | some stream =>
    match ← world (World.pending stream) with
    | .error _ => return false
    | .ok text =>
      let answer := text.takeWhile (· != '\n')
      world (World.advance stream (min text.length (answer.length + 1)))
      return answer.head? == some 'y' || answer.head? == some 'Y'

def agreed (asks : Bool) (question : Raw) : Work Bool :=
  if asks then confirms question else return true

/-! Directories -/

def ancestors (name : Raw) : List Raw :=
  let parts := Raw.splitOn '/' (withoutSlashes name)
  let above := (List.range parts.length).reverse.map fun n => Raw.join ['/'] (parts.take n)
  name :: above.filter fun path => !path.isEmpty && path.getLast? != some '/'

/-- Makes a directory, with those that lead to it if that is asked for, and tells which ones it has
made. Says so if that is not possible. -/
def makeDirs (withParents : Bool) (tell : Raw → Work Unit) (name : Raw) : Work Bool := do
  let paths := if withParents then (ancestors name).reverse else [name]
  let before ← machine
  let result ← if withParents && !name.isEmpty then onFiles (Machine.makeDirs (pathOf name))
    else onFiles (Machine.makeDir (pathOf name) 0o777)
  let after ← machine
  (paths.filter fun path => !before.hasDir (pathOf path) && after.hasDir (pathOf path)).forM tell
  match result with
  | .ok () => return true
  | .error fault =>
    let refused := if withParents then (paths.find? fun path => !after.hasDir (pathOf path)).getD name
      else name
    complain ("cannot create directory ".toList ++ quoted refused ++ (": " ++ fault.reason).toList)
    return false

def mkdir : Work Unit := do
  let a ← arguments [.plain 'p' ["parents"], .valued 'm' ["mode"], .plain 'v' ["verbose"]] false 1
  if a.operands.isEmpty then misuse 1 "missing operand".toList
  let mode? ← match a.value? 'm' with
    | none => pure none
    | some text =>
      match Mode.change? text 0 true 0o777 with
      | some mode => pure (some mode)
      | none => failWith 1 ("invalid mode ".toList ++ quoted text)
  forEach a.operands fun name => do
    let existed := (← nodeAt name).isOk
    let tell (path : Raw) : Work Unit := do
      if a.has 'v' then sayLine ((← Work.name) ++ ": created directory ".toList ++ quoted path)
    let made ← makeDirs (a.has 'p') tell name
    if made ∧ !existed then
      mode?.forM fun mode => do
        match (← machine).resolve (pathOf name) with
        | .ok place =>
          let _ ← onFiles (Machine.setMode place.location mode)
        | .error _ => pure ()
    return made

def removeDirs (a : Arguments) (action : String) : List Raw → Work Bool
  | [] => return true
  | name :: above => do
    if a.has 'v' then sayLine ((← Work.name) ++ ": removing directory, ".toList ++ quoted name)
    match ← onFiles (Machine.removeDir (pathOf name)) with
    | .ok () => removeDirs a "remove directory " above
    | .error fault =>
      if fault = .notEmpty ∧ a.has 'I' then return true
      else
        complain (("failed to " ++ action).toList ++ quoted name ++ (": " ++ fault.reason).toList)
        return false

def rmdir : Work Unit := do
  let a ← arguments [.plain 'p' ["parents"], .plain 'v' ["verbose"],
    .long 'I' .nothing "ignore-fail-on-non-empty"] false 1
  if a.operands.isEmpty then misuse 1 "missing operand".toList
  forEach a.operands fun name =>
    removeDirs a "remove " (if a.has 'p' then ancestors name else [name])

/-! Removing -/

structure RemovalForm where
  asks : Bool
  verbose : Bool

inductive Removal where
  | removed
  | kept
  | barred
  | failed
  deriving DecidableEq

def kindName : Node → String
  | .dir .. => "directory "
  | .file [] _ => "regular empty file "
  | .special (.link _) => "symbolic link "
  | _ => "regular file "

def RemovalForm.finish (f : RemovalForm) (name : Raw) (kind : String)
    (result : Except FileFault Unit) : Work Removal := do
  match result with
  | .ok () =>
    if f.verbose then sayLine (("removed " ++ kind).toList ++ quoted name)
    return .removed
  | .error fault =>
    cannot "remove" name fault
    return .failed

/-- Removes a file, or a directory with all that is in it. Names in a directory are taken as it is
listed; `depth` bounds how deep directories may be nested. -/
def removeTree (f : RemovalForm) : Nat → Raw → Work Removal
  | 0, name => do
    cannot "remove" name .nameTooLong
    return .failed
  | depth + 1, name => do
    match ← entryAt name with
    | .error fault =>
      cannot "remove" name fault
      return .failed
    | .ok (.dir mode entries) =>
      if !Right.read.isIn mode ∧ !entries.isEmpty then
        cannot "remove" name .denied
        return .failed
      else if !(← agreed (f.asks && !entries.isEmpty)
          ("descend into directory ".toList ++ quoted name)) then return .barred
      else
        let removals ← entries.mapM fun entry =>
          removeTree f depth (inside name (Raw.ofBytes entry.1))
        if removals.contains .failed then return .failed
        else if removals.contains .barred then return .barred
        else if !(← agreed f.asks ("remove directory ".toList ++ quoted name)) then
          return if entries.isEmpty then .barred else .kept
        else f.finish name "directory " (← onFiles (Machine.removeDir (pathOf name)))
    | .ok node =>
      if !(← agreed f.asks (("remove " ++ kindName node).toList ++ quoted name)) then return .kept
      else f.finish name "" (← onFiles (Machine.removeFile (pathOf name)))

def maxDepth : Nat := 200

def rm : Work Unit := do
  let a ← arguments [.plain 'f' ["force"], .plain 'r' ["recursive"], .plain 'R' [],
    .plain 'd' ["dir"], .plain 'v' ["verbose"], .plain 'i' [], .plain 'I' []] false 1
  if a.operands.isEmpty ∧ !a.has 'f' then misuse 1 "missing operand".toList
  let recursive := a.has 'r' || a.has 'R'
  let manner := a.lastOf "fiI"
  let count := a.operands.length
  if manner = some 'I' ∧ (recursive ∨ 3 < count) then
    let question := s!"remove {count} argument" ++ (if count = 1 then "" else "s")
      ++ (if recursive then " recursively" else "")
    if !(← confirms question.toList) then exit 0
  let form : RemovalForm := ⟨manner == some 'i', a.has 'v'⟩
  forEach a.operands fun name => do
    let last := baseName name
    if recursive ∧ (last = ['.'] ∨ last = ['.', '.']) then
      complain ("refusing to remove '.' or '..' directory: skipping ".toList ++ quoted name)
      return false
    else
      match ← entryAt name with
      | .error fault =>
        if manner = some 'f' ∧ (fault = .missing ∨ fault = .notDirectory) then return true
        else
          cannot "remove" name fault
          return false
      | .ok (.dir _ entries) =>
        if recursive ∨ (a.has 'd' ∧ entries.isEmpty) then
          return (← removeTree form maxDepth name) != .failed
        else
          cannot "remove" name (if a.has 'd' then .notEmpty else .isDirectory)
          return false
      | .ok _ => return (← removeTree form maxDepth name) != .failed

def unlink : Work Unit := do
  let a ← arguments [] false 1
  match a.operands with
  | [name] =>
    match ← onFiles (Machine.removeFile (pathOf name)) with
    | .ok () => return ()
    | .error fault =>
      failWith 1 ("cannot unlink ".toList ++ quoted name ++ (": " ++ fault.reason).toList)
  | [] => misuse 1 "missing operand".toList
  | _ :: extra :: _ => misuse 1 ("extra operand ".toList ++ quoted extra)

/-! Attributes -/

def touch : Work Unit := do
  let a ← arguments [.plain 'c' ["no-create"], .plain 'a' [], .plain 'm' [], .plain 'f' [],
    .plain 'h' ["no-dereference"], .valued 'd' ["date"], .valued 'r' ["reference"],
    .valued 't' []] false 1
  if a.operands.isEmpty then misuse 1 "missing file operand".toList
  forEach a.operands fun name => do
    match ← nodeAt name with
    | .ok _ => return true
    | .error fault =>
      if fault = .missing ∧ a.has 'c' then return true
      else
        match ← onFiles (Machine.appendFile (pathOf name) []) with
        | .ok () => return true
        | .error fault =>
          let fault := if fault = .isDirectory then FileFault.missing else fault
          complain ("cannot touch ".toList ++ quoted name ++ (": " ++ fault.reason).toList)
          return false

def allNames (m : Machine) : Nat → Raw → List Raw
  | 0, name => [name]
  | depth + 1, name =>
    match m.entry (pathOf name) with
    | .ok ⟨_, some (.dir _ entries)⟩ =>
      name :: entries.flatMap fun entry => allNames m depth (inside name (Raw.ofBytes entry.1))
    | _ => [name]

def isModeWord (word : Raw) : Bool :=
  match word with
  | '-' :: rest => !rest.isEmpty && rest.all "rwxXstugo,+=-01234567".toList.contains
  | _ => false

def chmod : Work Unit := do
  let words ← args
  let before := words.takeWhile (· != ['-', '-'])
  let dashed := before.filter isModeWord
  let rest := before.filter (!isModeWord ·) ++ words.drop before.length
  let a ← match Arguments.read [.plain 'R' ["recursive"], .plain 'v' ["verbose"],
      .plain 'f' ["silent", "quiet"], .plain 'c' ["changes"], .long 'P' .value "reference"]
      false rest with
    | .ok a => pure a
    | .error message => misuse 1 message
  let reference ← (a.value? 'P').mapM fun name => do
    match ← nodeAt name with
    | .ok node => return node.mode
    | .error fault =>
      failWith 1 ("failed to get attributes of ".toList ++ quoted name
        ++ (": " ++ fault.reason).toList)
  let (change, files) ← match reference, dashed, a.operands with
    | none, [], [] | some _, _, [] => misuse 1 "missing operand".toList
    | some mode, _, files => pure (Mode.digits mode, files)
    | none, [], [only] => misuse 1 ("missing operand after ".toList ++ quoted only)
    | none, [], change :: files => pure (change, files)
    | none, dashed, files =>
      if files.isEmpty then
        misuse 1 ("missing operand after ".toList ++ quoted (dashed.getLastD []))
      else pure (Raw.join [','] dashed, files)
  if (Mode.change? change 0 false 0).isNone then misuse 1 ("invalid mode: ".toList ++ quoted change)
  else
    let m ← machine
    let refused (name : Raw) (fault : FileFault) : Work Bool := do
      if !a.has 'f' then cannot "access" name fault
      if a.has 'v' then sayLine (quoted name ++ " could not be accessed".toList)
      return false
    forEach (files.flatMap fun name => if a.has 'R' then allNames m maxDepth name else [name])
      fun name => do
        let m ← machine
        match m.resolve (pathOf name) with
        | .ok ⟨location, some node⟩ =>
          let mode := (Mode.change? change m.mask node.isDir node.mode).getD node.mode
          let changed := " from ".toList ++ Mode.describe node.mode ++ " to ".toList
            ++ Mode.describe mode
          match ← onFiles (Machine.setMode location mode) with
          | .ok () =>
            if mode ≠ node.mode then
              if a.has 'v' ∨ a.has 'c' then
                sayLine ("mode of ".toList ++ quoted name ++ " changed".toList ++ changed)
            else if a.has 'v' then
              sayLine ("mode of ".toList ++ quoted name ++ " retained as ".toList
                ++ Mode.describe mode)
            return true
          | .error fault =>
            if !a.has 'f' then
              complain ("changing permissions of ".toList ++ quoted name
                ++ (": " ++ fault.reason).toList)
            if a.has 'v' then
              sayLine ("failed to change mode of ".toList ++ quoted name ++ changed)
            return false
        | .ok ⟨_, none⟩ => refused name .missing
        | .error fault => refused name fault

def truncate : Work Unit := do
  let a ← arguments [.valued 's' ["size"], .plain 'c' ["no-create"]] false 1
  match (a.value? 's').bind size? with
  | none => misuse 1 "you must specify either '--size' or '--reference'".toList
  | some size =>
    forEach a.operands fun name => do
      let change (content : Bytes) : Bytes :=
        content.take size ++ List.replicate (size - content.length) 0
      match ← onFiles (Machine.rewrite (pathOf name) [] change) with
      | .ok () => return true
      | .error fault =>
        complain ("cannot open ".toList ++ quoted name ++ (" for writing: " ++ fault.reason).toList)
        return false

end MergeTrial.Shell.Utility
