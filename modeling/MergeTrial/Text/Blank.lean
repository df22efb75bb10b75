/-! Blank characters and the words between them. Main statements: a text is its leading blanks and
what is left without them, and what is left neither starts nor ends with a blank. -/

namespace MergeTrial.Text

def isBlank (c : Char) : Bool :=
  let n := c.toNat
  (9 ≤ n && n ≤ 13) || n == 32 || n == 0x85 || n == 0xA0 || n == 0x1680
    || (0x2000 ≤ n && n ≤ 0x200A) || n == 0x2028 || n == 0x2029 || n == 0x202F
    || n == 0x205F || n == 0x3000

def dropBlanks (cs : List Char) : List Char := cs.dropWhile isBlank

def dropBlanksEnd (cs : List Char) : List Char := (dropBlanks cs.reverse).reverse

def core (cs : List Char) : List Char := dropBlanksEnd (dropBlanks cs)

def firstWord (cs : List Char) : List Char := (dropBlanks cs).takeWhile (!isBlank ·)

def allBlank (s : String) : Bool := s.toList.all isBlank

def trim (s : String) : String := String.ofList (core s.toList)

def trimEnd (s : String) : String := String.ofList (dropBlanksEnd s.toList)

theorem takeWhile_append_dropBlanks (cs : List Char) :
    cs.takeWhile isBlank ++ dropBlanks cs = cs :=
  List.takeWhile_append_dropWhile

theorem head_dropBlanks {cs : List Char} {c : Char} (h : (dropBlanks cs).head? = some c) :
    isBlank c = false := by
  induction cs with
  | nil => simp [dropBlanks] at h
  | cons d cs ih =>
    by_cases hd : isBlank d
    · exact ih (by simpa [dropBlanks, List.dropWhile_cons, hd] using h)
    · have hc : d = c := by simpa [dropBlanks, List.dropWhile_cons, hd] using h
      simpa [hc] using hd

theorem getLast_dropBlanksEnd {cs : List Char} {c : Char}
    (h : (dropBlanksEnd cs).getLast? = some c) : isBlank c = false := by
  rw [dropBlanksEnd, List.getLast?_reverse] at h
  exact head_dropBlanks h

theorem exists_dropBlanksEnd_append (cs : List Char) :
    ∃ blanks, cs = dropBlanksEnd cs ++ blanks ∧ ∀ c ∈ blanks, isBlank c = true := by
  refine ⟨(cs.reverse.takeWhile isBlank).reverse, ?_, fun c hc => ?_⟩
  · rw [dropBlanksEnd, ← List.reverse_append, takeWhile_append_dropBlanks, List.reverse_reverse]
  · exact List.all_eq_true.1 List.all_takeWhile c (List.mem_reverse.1 hc)

end MergeTrial.Text
