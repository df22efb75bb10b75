import MergeTrial.Shell.Raw

/-! Signals by their numbers. -/

namespace MergeTrial.Shell.Signal

def names : List String :=
  ["EXIT", "HUP", "INT", "QUIT", "ILL", "TRAP", "ABRT", "BUS", "FPE", "KILL", "USR1", "SEGV",
    "USR2", "PIPE", "ALRM", "TERM", "STKFLT", "CHLD", "CONT", "STOP", "TSTP", "TTIN", "TTOU",
    "URG", "XCPU", "XFSZ", "VTALRM", "PROF", "WINCH", "IO", "PWR", "SYS"]

def nameOf (n : Nat) : Raw := (names[n]?.getD "").toList

def ofName? (name : Raw) : Option Nat := names.findIdx? fun known => known.toList == name

def ofText? (text : Raw) : Option Nat :=
  match Raw.nat? text with
  | some n => if n < 65 then some n else none
  | none => ofName? (text.map Char.toUpper)

def kill : Nat := 9

def interrupt : Nat := 2

def brokenPipe : Nat := 13

def terminate : Nat := 15

def isHarmless (n : Nat) : Bool := [17, 18, 23, 28].contains n

def stops (n : Nat) : Bool := [19, 20, 21, 22].contains n

def description? (n : Nat) : Option String :=
  match n with
  | 1 => some "Hangup"
  | 3 => some "Quit"
  | 4 => some "Illegal instruction"
  | 5 => some "Trace/breakpoint trap"
  | 6 => some "Aborted"
  | 7 => some "Bus error"
  | 8 => some "Floating point exception"
  | 9 => some "Killed"
  | 10 => some "User defined signal 1"
  | 11 => some "Segmentation fault"
  | 12 => some "User defined signal 2"
  | 14 => some "Alarm clock"
  | 15 => some "Terminated"
  | 16 => some "Stack fault"
  | 24 => some "CPU time limit exceeded"
  | 25 => some "File size limit exceeded"
  | 26 => some "Virtual timer expired"
  | 27 => some "Profiling timer expired"
  | 29 => some "I/O possible"
  | 30 => some "Power failure"
  | 31 => some "Bad system call"
  | _ => none

end MergeTrial.Shell.Signal
