import MergeTrial.Json.Reader
import MergeTrial.Proofs.Json.Lexing

/-! Reading the written form of a value gives back the value. -/

namespace MergeTrial.Json

mutual

def tokensOf : Json → List Token
  | .array [] => [.openArray, .closeArray]
  | .array (item :: rest) => .openArray :: (tokensOf item ++ (tokensOfItems rest ++ [.closeArray]))
  | .object [] => [.openObject, .closeObject]
  | .object ((key, value) :: rest) => .openObject :: .scalar (.string key) :: .colon ::
      (tokensOf value ++ (tokensOfMembers rest ++ [.closeObject]))
  | scalar => [.scalar scalar]

def tokensOfItems : List Json → List Token
  | [] => []
  | item :: rest => .comma :: (tokensOf item ++ tokensOfItems rest)

def tokensOfMembers : List (Option String × Json) → List Token
  | [] => []
  | (key, value) :: rest => .comma :: .scalar (.string key) :: .colon ::
      (tokensOf value ++ tokensOfMembers rest)

end

theorem ends_writeItems (level : Nat) (items : List Json) {rest : List Char} (h : Ends rest) :
    Ends (writeItems level items ++ rest) := by
  cases items with
  | nil => exact h
  | cons item items => exact ends_comma _

theorem ends_writeMembers (level : Nat) (members : List (Option String × Json)) {rest : List Char}
    (h : Ends rest) : Ends (writeMembers level members ++ rest) := by
  cases members with
  | nil => exact h
  | cons member members => exact ends_comma _

mutual

theorem lexes_write (level : Nat) : ∀ j : Json, Lexes (write level j) (tokensOf j)
  | .null => fun _ _ _ => rfl
  | .bool true => fun _ _ _ => rfl
  | .bool false => fun _ _ _ => rfl
  | .int value => lexes_number (Numeral.spells_int value)
  | .decimal number => lexes_number number.spells_text
  | .string text => fun tokens rest _ => run_quote text tokens rest
  | .array [] => fun _ _ _ => rfl
  | .object [] => fun _ _ _ => rfl
  | .array (item :: items) => by
    intro tokens rest _
    have hclose : Ends (indent level ++ (']' :: rest)) := ends_indent ..
    simp only [write, tokensOf, List.cons_append, List.append_assoc, List.nil_append,
      List.reverse_cons, List.reverse_append]
    rw [run_token '[' .openArray fun _ => rfl, run_indent, lexes_write (level + 1) item _ _
      (ends_writeItems (level + 1) items hclose), lexes_writeItems (level + 1) items _ _ hclose,
      run_indent, run_token ']' .closeArray fun _ => rfl]
    rfl
  | .object ((key, value) :: members) => by
    intro tokens rest _
    have hclose : Ends (indent level ++ ('\x7d' :: rest)) := ends_indent ..
    simp only [write, tokensOf, List.cons_append, List.append_assoc, List.nil_append,
      List.reverse_cons, List.reverse_append]
    rw [run_token '\x7b' .openObject fun _ => rfl, run_indent, run_quote,
      run_token ':' .colon fun _ => rfl, run_blank,
      lexes_write (level + 1) value _ _ (ends_writeMembers (level + 1) members hclose),
      lexes_writeMembers (level + 1) members _ _ hclose, run_indent,
      run_token '\x7d' .closeObject fun _ => rfl]
    rfl

theorem lexes_writeItems (level : Nat) :
    ∀ items : List Json, Lexes (writeItems level items) (tokensOfItems items)
  | [] => fun _ _ _ => rfl
  | item :: items => by
    intro tokens rest hrest
    simp only [writeItems, tokensOfItems, List.cons_append, List.append_assoc, List.reverse_cons,
      List.reverse_append, List.nil_append]
    rw [run_token ',' .comma fun _ => rfl, run_indent, lexes_write level item _ _
      (ends_writeItems level items hrest), lexes_writeItems level items _ _ hrest]

theorem lexes_writeMembers (level : Nat) : ∀ members : List (Option String × Json),
    Lexes (writeMembers level members) (tokensOfMembers members)
  | [] => fun _ _ _ => rfl
  | (key, value) :: members => by
    intro tokens rest hrest
    simp only [writeMembers, tokensOfMembers, List.cons_append, List.append_assoc,
      List.reverse_cons, List.reverse_append, List.nil_append]
    rw [run_token ',' .comma fun _ => rfl, run_indent, run_quote,
      run_token ':' .colon fun _ => rfl, run_blank, lexes_write level value _ _
      (ends_writeMembers level members hrest), lexes_writeMembers level members _ _ hrest]

end

theorem tokens?_write (level : Nat) (j : Json) : tokens? (write level j) = some (tokensOf j) := by
  have hlexes := lexes_write level j [] [] (Or.inl rfl)
  rw [List.append_nil, List.append_nil] at hlexes
  refine hlexes.trans ?_
  simp only [Lexer.run, List.foldlM_nil, Option.pure_def, Option.bind_some, Lexer.finish,
    List.reverse_reverse]

namespace Builder

theorem run_of_step {b next : Builder} {token : Token} (h : b.step token = some next)
    (tokens : List Token) :
    (token :: tokens).foldlM step b = tokens.foldlM step next := by
  rw [List.foldlM_cons, h]
  rfl

def Awaits (expecting : Expecting) : Prop := expecting = .value ∨ expecting = .valueOrEnd

theorem step_of_awaits {expecting : Expecting} (h : Awaits expecting) {frames : List Frame}
    {token : Token} {next : Builder} (hopen : openValue frames token = some next) :
    step ⟨frames, expecting⟩ token = some next := by
  rcases h with rfl | rfl
  · exact hopen
  · simp only [step, hopen, Option.some_or]

mutual

theorem run_tokensOf {expecting : Expecting} (h : Awaits expecting) (frames : List Frame)
    (tokens : List Token) : ∀ j : Json, (tokensOf j ++ tokens).foldlM step ⟨frames, expecting⟩ =
      tokens.foldlM step (put frames j)
  | .null => run_of_step (step_of_awaits h rfl) tokens
  | .bool _ => run_of_step (step_of_awaits h rfl) tokens
  | .int _ => run_of_step (step_of_awaits h rfl) tokens
  | .decimal _ => run_of_step (step_of_awaits h rfl) tokens
  | .string _ => run_of_step (step_of_awaits h rfl) tokens
  | .array [] => by
    rw [tokensOf, List.cons_append, run_of_step (step_of_awaits h rfl)]
    exact run_of_step rfl tokens
  | .object [] => by
    rw [tokensOf, List.cons_append, run_of_step (step_of_awaits h rfl)]
    exact run_of_step rfl tokens
  | .array (item :: items) => by
    simp only [tokensOf, List.cons_append, List.append_assoc, List.nil_append]
    rw [run_of_step (step_of_awaits h rfl), run_tokensOf (Or.inr rfl) (.array [] :: frames) _ item,
      put, run_tokensOfItems frames _ items [item], run_of_step rfl, List.reverse_append,
      List.reverse_reverse]
    rfl
  | .object ((key, value) :: members) => by
    simp only [tokensOf, List.cons_append, List.append_assoc, List.nil_append]
    rw [run_of_step (step_of_awaits h rfl), run_of_step rfl, run_of_step rfl,
      run_tokensOf (Or.inl rfl) (.member [] key :: frames) _ value, put,
      run_tokensOfMembers frames _ members [(key, value)], run_of_step rfl, List.reverse_append,
      List.reverse_reverse]
    rfl

theorem run_tokensOfItems (frames : List Frame) (tokens : List Token) :
    ∀ items before : List Json,
      (tokensOfItems items ++ tokens).foldlM step ⟨.array before :: frames, .separator⟩ =
        tokens.foldlM step ⟨.array (items.reverse ++ before) :: frames, .separator⟩
  | [], _ => rfl
  | item :: items, before => by
    simp only [tokensOfItems, List.cons_append, List.append_assoc]
    rw [run_of_step rfl, run_tokensOf (Or.inl rfl) (.array before :: frames) _ item, put,
      run_tokensOfItems frames tokens items (item :: before), List.reverse_cons, List.append_assoc]
    rfl

theorem run_tokensOfMembers (frames : List Frame) (tokens : List Token) :
    ∀ members before : List (Option String × Json),
      (tokensOfMembers members ++ tokens).foldlM step ⟨.object before :: frames, .separator⟩ =
        tokens.foldlM step ⟨.object (members.reverse ++ before) :: frames, .separator⟩
  | [], _ => rfl
  | (key, value) :: members, before => by
    simp only [tokensOfMembers, List.cons_append, List.append_assoc]
    rw [run_of_step rfl, run_of_step rfl, run_of_step rfl,
      run_tokensOf (Or.inl rfl) (.member before key :: frames) _ value, put,
      run_tokensOfMembers frames tokens members ((key, value) :: before), List.reverse_cons,
      List.append_assoc]
    rfl

end

end Builder

theorem ofTokens?_tokensOf (j : Json) : ofTokens? (tokensOf j) = some j := by
  have hrun := Builder.run_tokensOf (Or.inl rfl) [] [] j
  rw [List.append_nil] at hrun
  rw [ofTokens?, hrun]
  rfl

theorem read?_pretty (j : Json) : read? j.pretty = some j := by
  rw [read?, pretty, String.toList_ofList, tokens?_write, Option.bind_some, ofTokens?_tokensOf]

end MergeTrial.Json
