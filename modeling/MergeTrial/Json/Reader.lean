import MergeTrial.Json.Token

/-! Reading JSON: the strict grammar, with blanks only where it allows them and nothing after the
value. A builder takes one token at a time and keeps the containers that are still open. -/

namespace MergeTrial.Json

/-- An open container, its content so far the last first. -/
inductive Frame where
  | array (items : List Json)
  | object (members : List (Option String × Json))
  | member (members : List (Option String × Json)) (key : Option String)

inductive Expecting where
  | value
  | valueOrEnd
  | key
  | keyOrEnd
  | colon
  | separator
  | nothing (result : Json)

structure Builder where
  frames : List Frame
  expecting : Expecting

namespace Builder

def put (frames : List Frame) (value : Json) : Builder :=
  match frames with
  | .array items :: rest => ⟨.array (value :: items) :: rest, .separator⟩
  | .member members key :: rest => ⟨.object ((key, value) :: members) :: rest, .separator⟩
  | rest => ⟨rest, .nothing value⟩

def openValue (frames : List Frame) : Token → Option Builder
  | .openArray => some ⟨.array [] :: frames, .valueOrEnd⟩
  | .openObject => some ⟨.object [] :: frames, .keyOrEnd⟩
  | .scalar value => some (put frames value)
  | _ => none

def openMember (frames : List Frame) : Token → Option Builder
  | .scalar (.string key) =>
    match frames with
    | .object members :: rest => some ⟨.member members key :: rest, .colon⟩
    | _ => none
  | _ => none

def close (frames : List Frame) : Token → Option Builder
  | .closeArray =>
    match frames with
    | .array items :: rest => some (put rest (.array items.reverse))
    | _ => none
  | .closeObject =>
    match frames with
    | .object members :: rest => some (put rest (.object members.reverse))
    | _ => none
  | _ => none

def separate (frames : List Frame) : Token → Option Builder
  | .comma =>
    match frames with
    | .array items :: rest => some ⟨.array items :: rest, .value⟩
    | .object members :: rest => some ⟨.object members :: rest, .key⟩
    | _ => none
  | token => close frames token

def step (b : Builder) (token : Token) : Option Builder :=
  match b.expecting with
  | .value => openValue b.frames token
  | .valueOrEnd => (openValue b.frames token).or (close b.frames token)
  | .key => openMember b.frames token
  | .keyOrEnd => (openMember b.frames token).or (close b.frames token)
  | .colon =>
    match token with
    | .colon => some ⟨b.frames, .value⟩
    | _ => none
  | .separator => separate b.frames token
  | .nothing _ => none

def result? (b : Builder) : Option Json :=
  match b.expecting with
  | .nothing value => some value
  | _ => none

end Builder

def ofTokens? (tokens : List Token) : Option Json :=
  (tokens.foldlM Builder.step ⟨[], .value⟩).bind Builder.result?

def read? (text : String) : Option Json := (tokens? text.toList).bind ofTokens?

end MergeTrial.Json
