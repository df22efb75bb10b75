import MergeTrial.Json.Value

/-! Reading typed data out of JSON values. A record is an object or an array of its fields in
order, with the fields at the end left out; unknown members are passed over, repeated known ones
refused. -/

namespace MergeTrial.Json
variable {α β : Type}

def text? : Json → Option String
  | .string text => text
  | _ => none

def bool? : Json → Option Bool
  | .bool value => some value
  | _ => none

def int? (low high : Int) : Json → Option Int
  | .int value => if low ≤ value ∧ value ≤ high then some value else none
  | _ => none

def nat? (bound : Nat) (j : Json) : Option Nat := (int? 0 bound j).map Int.toNat

def nullable? (f : Json → Option α) : Json → Option (Option α)
  | .null => some none
  | j => (f j).map some

def list? (f : Json → Option α) : Json → Option (List α)
  | .array items => items.mapM f
  | _ => none

def pair? (f : Json → Option α) (g : Json → Option β) : Json → Option (α × β)
  | .array [x, y] => do return (← f x, ← g y)
  | _ => none

def variant? (ofName : String → Option α) : Json → Option α
  | .string (some name) => ofName name
  | .object [(some name, .null)] => ofName name
  | _ => none

def keyed? (members : List (Option String × Json)) : Option (List (String × Json)) :=
  members.mapM fun member => member.1.map fun key => (key, member.2)

def unique? (members : List (String × Json)) (key : String) : Option (Option Json) :=
  match members.filter (·.1 == key) with
  | [] => some none
  | [member] => some (some member.2)
  | _ => none

def fields? (names : List String) : Json → Option (List (Option Json))
  | .object members => do
    let members ← keyed? members
    names.mapM (unique? members)
  | .array items =>
    if items.length ≤ names.length then
      some (items.map some ++ List.replicate (names.length - items.length) none)
    else none
  | _ => none

def required? (f : Json → Option α) (field : Option Json) : Option α := field.bind f

def withDefault? (f : Json → Option α) (default : α) : Option Json → Option α
  | none => some default
  | some j => f j

end MergeTrial.Json
