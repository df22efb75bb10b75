import MergeTrial.FileTree.Machine
import MergeTrial.Shell.Utility.Table

/-! Machines around a directory. The system's files are in their usual places and cannot be changed,
except in the place for scratch files. -/

namespace MergeTrial

namespace Shell

def systemDir (entries : List (String × Node)) : Node :=
  .dir 0o555 (entries.map fun entry => (Bytes.ofString entry.1, entry.2))

def program (name : String) : Node := .special (.program name)

def scripted (command : String) : Node :=
  .file (Bytes.ofString ("#!/bin/sh\ncmd=$\x7b0##*/\x7d\nexec " ++ command ++ " \"$@\"\n")) 0o555

def programs : Node :=
  systemDir (Utility.all.map (fun entry => (entry.1, program entry.1))
    ++ [("dash", program "sh"), ("egrep", scripted "grep -E"), ("fgrep", scripted "grep -F"),
      ("sh", program "sh")])

def systemFile (text : String) : Node := .file (Bytes.ofString text) 0o444

def secretFile : Node := .file [] 0

def devices : Node :=
  let descriptor (n : Nat) : Node := .special (.descriptor n)
  systemDir [
    ("fd", systemDir ((List.range 10).map fun n => (toString n, descriptor n))),
    ("full", .special .full), ("null", .special .null), ("stderr", descriptor 2),
    ("stdin", descriptor 0), ("stdout", descriptor 1), ("tty", .special .terminal),
    ("zero", .special .null)]

def settingsOfSystem : Node :=
  systemDir [
    ("group", systemFile "root:x:0:\n"),
    ("hostname", systemFile "localhost\n"),
    ("hosts", systemFile "127.0.0.1\tlocalhost\n"),
    ("os-release", systemFile "NAME=\"Linux\"\n"),
    ("passwd", systemFile "root:x:0:0:root:/root:/bin/sh\n"),
    ("shadow", secretFile)]

def system : Node :=
  systemDir [
    ("bin", programs), ("dev", devices), ("etc", settingsOfSystem), ("home", systemDir []),
    ("lib", systemDir []), ("opt", systemDir []), ("proc", systemDir []), ("root", .dir 0 []),
    ("sbin", systemDir []), ("tmp", .dir 0o777 []),
    ("usr", systemDir [
      ("bin", programs), ("lib", systemDir []),
      ("local", systemDir [("bin", systemDir []), ("sbin", systemDir [])]),
      ("sbin", systemDir []), ("share", systemDir [])]),
    ("var", systemDir [("tmp", .dir 0o777 [])])]

def withDirs (entries : List (Bytes × Node)) : Location → Node → Node
  | [], _ => .dir 0o755 entries
  | name :: rest, .dir mode others =>
    let next := (others.lookup name).getD (systemDir [])
    .dir (mode ||| 0o111) (Node.putEntry name (some (withDirs entries rest next)) others)
  | _, node => node

end Shell

namespace Machine

def around (path : Path) (entries : List (Bytes × Node)) (searchPath : Option Bytes) : Machine :=
  let location := (Path.segments path).filter fun s => !s.isEmpty
  { root := Shell.withDirs entries location Shell.system
    cwd := location
    searchPath := searchPath
    mask := 0o022
    strays := [] }

end Machine
end MergeTrial
