import MergeTrial.Json.Decimal

/-! JSON values. Members of an object keep their order and may repeat a key, so a value says all
that its text says about structure. -/

namespace MergeTrial

/-- `string none` is a literal whose escapes leave half of a surrogate pair alone: well formed,
but no text. `decimal` is a number written with a fraction or an exponent, or as minus zero. -/
inductive Json where
  | null
  | bool (value : Bool)
  | int (value : Int)
  | decimal (number : Decimal)
  | string (text : Option String)
  | array (items : List Json)
  | object (members : List (Option String × Json))
  deriving Inhabited

namespace Json

def text (s : String) : Json := .string (some s)

def nat (n : Nat) : Json := .int n

def texts (l : List String) : Json := .array (l.map text)

def nullable {α : Type} (f : α → Json) : Option α → Json
  | none => .null
  | some x => f x

def record (members : List (String × Json)) : Json :=
  .object (members.map fun member => (some member.1, member.2))

mutual

def depth : Json → Nat
  | .array items => depthItems items + 1
  | .object members => depthMembers members + 1
  | _ => 0

def depthItems : List Json → Nat
  | [] => 0
  | item :: rest => max (depth item) (depthItems rest)

def depthMembers : List (Option String × Json) → Nat
  | [] => 0
  | (_, value) :: rest => max (depth value) (depthMembers rest)

end

mutual

def representable : Json → Bool
  | .int value => (Decimal.ofInt value).isFinite
  | .decimal number => number.isFinite
  | .string text => text.isSome
  | .array items => representableItems items
  | .object members => representableMembers members
  | _ => true

def representableItems : List Json → Bool
  | [] => true
  | item :: rest => representable item && representableItems rest

def representableMembers : List (Option String × Json) → Bool
  | [] => true
  | (key, value) :: rest => key.isSome && representable value && representableMembers rest

end

end Json
end MergeTrial
