/-! Lines of a text, each with the line feed, carriage return or pair of them that ends it. Main
statement: the lines joined are the text. -/

namespace MergeTrial.Diff

def linesFrom (start : List Char) : List Char → List (List Char)
  | [] => if start.isEmpty then [] else [start.reverse]
  | '\r' :: '\n' :: rest => ('\n' :: '\r' :: start).reverse :: linesFrom [] rest
  | '\r' :: rest => ('\r' :: start).reverse :: linesFrom [] rest
  | '\n' :: rest => ('\n' :: start).reverse :: linesFrom [] rest
  | c :: rest => linesFrom (c :: start) rest

def lines (text : String) : List String := (linesFrom [] text.toList).map String.ofList

def isEnded (line : String) : Bool :=
  match line.toList.getLast? with
  | some c => c == '\n' || c == '\r'
  | none => false

theorem flatten_linesFrom (start cs : List Char) :
    (linesFrom start cs).flatten = start.reverse ++ cs := by
  fun_induction linesFrom start cs with
  | case1 start h => simp_all
  | case2 start h => simp
  | case3 start rest ih => simp [ih]
  | case4 start rest _ ih => simp [ih]
  | case5 start rest ih => simp [ih]
  | case6 start c rest _ _ _ ih => simp [ih]

theorem join_map_ofList (ls : List (List Char)) :
    String.join (ls.map String.ofList) = String.ofList ls.flatten := by
  induction ls with
  | nil => rfl
  | cons l ls ih => simp [String.join_cons, ih, String.ofList_append]

theorem join_lines (text : String) : String.join (lines text) = text := by
  simp [lines, join_map_ofList, flatten_linesFrom]

end MergeTrial.Diff
