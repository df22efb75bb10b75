import MergeTrial.Text.Column

/-! Texts in columns, as lists of characters. -/

namespace MergeTrial.Text
variable (width : Nat) (s : String)

def atLeft : String := .ofList (s.toList.rightpad width ' ')

def atRight : String := .ofList (s.toList.leftpad width ' ')

theorem padEnd_eq : padEnd width s = atLeft width s := by
  rw [padEnd, blanks, atLeft, List.rightpad, String.ofList_append, String.ofList_toList,
    String.length_toList]

theorem padStart_eq : padStart width s = atRight width s := by
  rw [padStart, blanks, atRight, List.leftpad, String.ofList_append, String.ofList_toList,
    String.length_toList]

end MergeTrial.Text
