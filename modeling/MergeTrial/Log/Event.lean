/-! Events of the log: a level, the part of the program that they come from, the names of what they
report, and the spans that they happen in. -/

namespace MergeTrial.Log

inductive Level where
  | error
  | warn
  | info
  | debug
  | trace
  deriving DecidableEq, Inhabited

namespace Level

def all : List Level := [.error, .warn, .info, .debug, .trace]

def name : Level → String
  | .error => "error"
  | .warn => "warn"
  | .info => "info"
  | .debug => "debug"
  | .trace => "trace"

def rank : Level → Nat
  | .error => 1
  | .warn => 2
  | .info => 3
  | .debug => 4
  | .trace => 5

end Level

/-- A stretch of the program, with the values of its fields. -/
structure Span where
  name : String
  target : String
  level : Level
  fields : List (String × String)
  deriving DecidableEq, Inhabited

structure Event where
  level : Level
  target : String
  fields : List String
  within : List Span
  message : String
  deriving DecidableEq, Inhabited

namespace Event

def hasField (e : Event) (name : String) : Bool := name == "message" || e.fields.contains name

def line (e : Event) : String :=
  e.level.name.toUpper ++ " " ++ e.target ++ ": " ++ e.message ++ "\n"

end Event
end MergeTrial.Log
