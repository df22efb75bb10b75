import MergeTrial.Shell.Editor.Reader
import MergeTrial.Shell.Editor.Run
import MergeTrial.Shell.Utility.Options

/-! The program that edits texts by a script. -/

namespace MergeTrial.Shell.Utility
open Work

def sedFlags : List Flag :=
  [.plain 'n' ["quiet", "silent"], .valued 'e' ["expression"], .valued 'f' ["file"],
    .plain 'E' ["regexp-extended"], .plain 'r' [], ⟨'i', .maybe, ["in-place"], true⟩,
    .valued 'l' ["line-length"], .plain 's' ["separate"], .plain 'u' ["unbuffered"],
    .plain 'z' ["null-data", "zero-terminated"], .plain 'b' ["binary"],
    .long 'P' .nothing "posix", .long 'D' .nothing "debug", .long 'S' .nothing "sandbox",
    .long 'F' .nothing "follow-symlinks"]

def sedUsage : Work Unit := do
  let name ← Work.name
  let _ ← write 2 ("Usage: ".toList ++ name
    ++ " [OPTION]... \x7bscript-only-if-no-other-script\x7d [input-file]...\n".toList)
  exit 1

def sedParts : Nat → List (Char × Raw) → Work (List (Editor.Origin × Raw))
  | _, [] => return []
  | n, ('e', text) :: rest => do
    return (.argument n, text) :: (← sedParts (n + 1) rest)
  | n, ('f', path) :: rest => do
    match ← readOperand path with
    | .ok text =>
      return (.file path, text) :: (← sedParts n rest)
    | .error fault =>
      failWith 4 ("couldn't open file ".toList ++ path ++ Raw.ofString (": " ++ fault.reason))
  | n, _ :: rest => sedParts n rest

def sed : Work Unit := do
  let a ← match Arguments.read sedFlags false (← args) with
    | .ok a => pure a
    | .error message => do
      complain message
      sedUsage
      exit 1
  let given ← sedParts 1 a.options
  let (parts, files) ← match given, a.operands with
    | [], script :: files => pure ([(Editor.Origin.argument 1, script)], files)
    | [], [] => do
      sedUsage
      exit 1
    | given, files => pure (given, files)
  let refused (refusal : Editor.Refusal) : Work (Editor.Script × Editor.Progress) := do
    let _ ← Editor.openTargets refusal.targets
    failWith refusal.status refusal.message
  let ending := if a.has 'z' then '\x00' else '\n'
  let (script, progress) ←
    match Editor.readScript (a.has 'E' || a.has 'r') (a.has 'S') (a.has 'n') ending parts with
    | .ok read => pure read
    | .error refusal => refused refusal
  let inPlace := a.value? 'i'
  if inPlace.isSome && files.isEmpty then failWith 4 "no input files".toList
  let m : Editor.Manner :=
    { script := script
      separate := a.has 's' || a.has 'i'
      inPlace := inPlace
      ending := ending
      width := ((a.value? 'l').bind Raw.nat?).getD 70
      place := progress.place }
  Editor.edit m (if files.isEmpty then [['-']] else files)

end MergeTrial.Shell.Utility
