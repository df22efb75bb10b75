/-! Texts and the byte strings that hold them. Main statement: the bytes of a text read back as
that text. -/

namespace MergeTrial

abbrev Bytes := List UInt8

namespace Bytes

def ofString (s : String) : Bytes := s.toByteArray.data.toList

def text? (b : Bytes) : Option String := String.fromUTF8? ⟨b.toArray⟩

@[simp] theorem text?_ofString (s : String) : text? (ofString s) = some s := by
  have h : (⟨(ofString s).toArray⟩ : ByteArray) = s.toByteArray := by simp [ofString]
  rw [text?, h, String.fromUTF8?, dif_pos s.isValidUTF8]
  rfl

/-- How many bytes follow a leading byte, and which second bytes it allows. -/
def leading (b : UInt8) : Option (Nat × UInt8 × UInt8) :=
  if 0xC2 ≤ b && b ≤ 0xDF then some (1, 0x80, 0xBF)
  else if b == 0xE0 then some (2, 0xA0, 0xBF)
  else if b == 0xED then some (2, 0x80, 0x9F)
  else if 0xE1 ≤ b && b ≤ 0xEF then some (2, 0x80, 0xBF)
  else if b == 0xF0 then some (3, 0x90, 0xBF)
  else if 0xF1 ≤ b && b ≤ 0xF3 then some (3, 0x80, 0xBF)
  else if b == 0xF4 then some (3, 0x80, 0x8F)
  else none

def replacement : Char := '\uFFFD'

/-- A sequence under way: the code point so far, the bytes still due and the range of the next. -/
structure Partial where
  code : Nat
  due : Nat
  low : UInt8
  high : UInt8

def startChar (b : UInt8) : List Char × Option Partial :=
  if b < 0x80 then ([Char.ofNat b.toNat], none)
  else match leading b with
    | some (due, low, high) => ([], some ⟨b.toNat % (1 <<< (6 - due)), due, low, high⟩)
    | none => ([replacement], none)

/-- Decodes with one replacement character for each longest piece that starts a character and
cannot be completed. -/
def decodeFrom : Option Partial → Bytes → List Char
  | none, [] => []
  | some _, [] => [replacement]
  | none, b :: rest => (startChar b).1 ++ decodeFrom (startChar b).2 rest
  | some p, b :: rest =>
    if p.low ≤ b && b ≤ p.high then
      let code := p.code * 64 + b.toNat % 64
      if p.due ≤ 1 then Char.ofNat code :: decodeFrom none rest
      else decodeFrom (some ⟨code, p.due - 1, 0x80, 0xBF⟩) rest
    else replacement :: ((startChar b).1 ++ decodeFrom (startChar b).2 rest)

def display (b : Bytes) : String :=
  match text? b with
  | some s => s
  | none => String.ofList (decodeFrom none b)

@[simp] theorem display_ofString (s : String) : display (ofString s) = s := by
  simp [display]

end Bytes
end MergeTrial
