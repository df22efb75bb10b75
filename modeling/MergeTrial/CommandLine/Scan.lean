/-! Splitting command-line arguments into options and positional ones. -/

namespace MergeTrial.CommandLine

abbrev Grammar := String → Option Bool

/-- Options in the order given, with their values if they take one; the positional arguments. -/
structure Scanned where
  options : List (String × Option String)
  positionals : List String
  deriving DecidableEq

namespace Scanned

def empty : Scanned := ⟨[], []⟩

def addOption (name : String) (value : Option String) (s : Scanned) : Scanned :=
  { s with options := (name, value) :: s.options }

def addPositional (arg : String) (s : Scanned) : Scanned :=
  { s with positionals := arg :: s.positionals }

def values (s : Scanned) (name : String) : List String :=
  s.options.filterMap fun option => if option.1 = name then option.2 else none

def value? (s : Scanned) (name : String) : Option (Option String) :=
  match s.values name with
  | [] => some none
  | [value] => some (some value)
  | _ => none

def flag? (s : Scanned) (name : String) : Option Bool :=
  match s.options.filter (·.1 == name) with
  | [] => some false
  | [_] => some true
  | _ => none

end Scanned

inductive Shape where
  | positional
  | terminator
  | option (name : String) (value : Option String)
  | malformed

def shape (arg : String) : Shape :=
  match arg.toList with
  | ['-', '-'] => .terminator
  | '-' :: '-' :: rest =>
    let name := String.ofList (rest.takeWhile (· != '='))
    match rest.dropWhile (· != '=') with
    | [] => .option name none
    | _ :: value => .option name (some (String.ofList value))
  | ['-'] => .positional
  | '-' :: _ => .malformed
  | _ => .positional

def scanOption (grammar : Grammar) (name : String) (value : Option String)
    (rest : List String) : Option (Option String × List String) :=
  match grammar name, value, rest with
  | some true, some value, rest => some (some value, rest)
  | some true, none, next :: rest =>
    match shape next with
    | .positional => some (some next, rest)
    | _ => none
  | some false, none, rest => some (none, rest)
  | _, _, _ => none

theorem length_scanOption {grammar : Grammar} {name : String} {value v : Option String}
    {rest more : List String} (h : scanOption grammar name value rest = some (v, more)) :
    more.length ≤ rest.length := by
  simp only [scanOption] at h
  split at h
  · simp_all
  · split at h
    · simp only [Option.some.injEq, Prod.mk.injEq] at h
      simp [h.2]
    · simp at h
  · simp_all
  · simp at h

def scan (grammar : Grammar) (args : List String) : Option Scanned :=
  match args with
  | [] => some .empty
  | arg :: rest =>
    match shape arg with
    | .terminator => some ⟨[], rest⟩
    | .malformed => none
    | .positional => (scan grammar rest).map (·.addPositional arg)
    | .option name value =>
      match h : scanOption grammar name value rest with
      | some (v, more) =>
        have := length_scanOption h
        (scan grammar more).map (·.addOption name v)
      | none => none
termination_by args.length
decreasing_by
  all_goals simp_wf
  all_goals omega

def scanFront (grammar : Grammar) (args : List String) :
    Option (Scanned × String × List String) :=
  match args with
  | [] => none
  | arg :: rest =>
    match shape arg with
    | .terminator | .malformed => none
    | .positional => some (.empty, arg, rest)
    | .option name value =>
      match h : scanOption grammar name value rest with
      | some (v, more) =>
        have := length_scanOption h
        (scanFront grammar more).map fun front => (front.1.addOption name v, front.2)
      | none => none
termination_by args.length
decreasing_by
  all_goals simp_wf
  all_goals omega

end MergeTrial.CommandLine
