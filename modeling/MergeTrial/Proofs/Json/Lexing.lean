import MergeTrial.Json.Printer
import MergeTrial.Proofs.Json.Numeral

/-! The tokens of a written value. Numbers end only at the character behind them, so each statement
is about a text that goes on as written values do. -/

namespace MergeTrial.Json

namespace Lexer

def run (l : Lexer) (cs : List Char) : Option (List Token) := (cs.foldlM step l).bind finish

theorem run_cons (l : Lexer) (c : Char) (cs : List Char) :
    l.run (c :: cs) = (l.step c).bind fun next => next.run cs := by
  rw [run, List.foldlM_cons]
  cases l.step c <;> rfl

theorem run_of_step {l next : Lexer} {c : Char} (h : l.step c = some next) (cs : List Char) :
    l.run (c :: cs) = next.run cs := by
  rw [run_cons, h, Option.bind_some]

end Lexer

/-- The text behind a value is over, or goes on with a comma or on a new line. -/
def Ends (rest : List Char) : Prop :=
  rest = [] ∨ ∃ c tail, rest = c :: tail ∧ (c = ',' ∨ c = '\n')

/-- The characters stand for these tokens, whatever the text goes on with. -/
def Lexes (cs : List Char) (found : List Token) : Prop :=
  ∀ tokens rest, Ends rest →
    Lexer.run ⟨tokens, .idle⟩ (cs ++ rest) = Lexer.run ⟨found.reverse ++ tokens, .idle⟩ rest

theorem run_token (c : Char) (token : Token)
    (h : ∀ tokens, Lexer.between tokens c = some ⟨token :: tokens, .idle⟩) (tokens : List Token)
    (cs : List Char) :
    Lexer.run ⟨tokens, .idle⟩ (c :: cs) = Lexer.run ⟨token :: tokens, .idle⟩ cs := by
  have hstep : Lexer.step ⟨tokens, .idle⟩ c = some ⟨token :: tokens, .idle⟩ := h tokens
  exact Lexer.run_of_step hstep cs

theorem run_blank (tokens : List Token) (cs : List Char) :
    Lexer.run ⟨tokens, .idle⟩ (' ' :: cs) = Lexer.run ⟨tokens, .idle⟩ cs :=
  Lexer.run_of_step rfl cs

theorem run_indent (tokens : List Token) (level : Nat) (rest : List Char) :
    Lexer.run ⟨tokens, .idle⟩ (indent level ++ rest) = Lexer.run ⟨tokens, .idle⟩ rest := by
  have hblanks : ∀ n, Lexer.run ⟨tokens, .idle⟩ (List.replicate n ' ' ++ rest) =
      Lexer.run ⟨tokens, .idle⟩ rest := by
    intro n
    induction n with
    | zero => rfl
    | succ n ih => exact (run_blank tokens _).trans ih
  exact (Lexer.run_of_step rfl _).trans (hblanks (2 * level))

theorem ends_comma (rest : List Char) : Ends (',' :: rest) := Or.inr ⟨',', rest, rfl, Or.inl rfl⟩

theorem ends_indent (level : Nat) (rest : List Char) : Ends (indent level ++ rest) :=
  Or.inr ⟨'\n', _, rfl, Or.inr rfl⟩

section Numbers

theorem between_of_start {c : Char} {n : Numeral} (h : Numeral.start? c = some n)
    (tokens : List Token) : Lexer.between tokens c = some ⟨tokens, .numeral n⟩ := by
  unfold Lexer.between
  split
  all_goals first
    | exact absurd (Eq.trans (rfl : none = _) h) nofun
    | rw [h]; rfl

theorem push?_of_ends (n : Numeral) {c : Char} (hc : c = ',' ∨ c = '\n') : n.push? c = none := by
  obtain ⟨stage, negative, digits, places, powerNegative, power⟩ := n
  rcases hc with rfl | rfl <;> cases stage <;> rfl

theorem run_numeral {n m : Numeral} {cs : List Char} (h : cs.foldlM Numeral.push? n = some m)
    (tokens : List Token) (rest : List Char) :
    Lexer.run ⟨tokens, .numeral n⟩ (cs ++ rest) = Lexer.run ⟨tokens, .numeral m⟩ rest := by
  induction cs generalizing n with
  | nil =>
    obtain rfl := Option.some.inj h
    rfl
  | cons c cs ih =>
    obtain ⟨next, hnext, hrest⟩ := Option.bind_eq_some_iff.1 h
    refine (Lexer.run_of_step ?_ (cs ++ rest)).trans (ih hrest)
    simp only [Lexer.step, hnext]

theorem lexes_number {cs : List Char} {value : Json} (h : Numeral.Spells cs value) :
    Lexes cs [.scalar value] := by
  obtain ⟨n, ⟨first, digits, start, rfl, hstart, hdigits⟩, hvalue⟩ := h
  intro tokens rest hrest
  have hfirst : Lexer.step ⟨tokens, .idle⟩ first = some ⟨tokens, .numeral start⟩ :=
    between_of_start hstart tokens
  have hnumeral : Lexer.run ⟨tokens, .idle⟩ (first :: digits ++ rest) =
      Lexer.run ⟨tokens, .numeral n⟩ rest :=
    (Lexer.run_of_step hfirst _).trans (run_numeral hdigits tokens rest)
  rw [hnumeral]
  rcases hrest with rfl | ⟨c, tail, rfl, hc⟩
  · simp only [Lexer.run, List.foldlM_nil, Option.pure_def, Option.bind_some, Lexer.finish, hvalue]
    rfl
  · have hbetween : Lexer.step ⟨tokens, .numeral n⟩ c =
        Lexer.step ⟨.scalar value :: tokens, .idle⟩ c := by
      simp only [Lexer.step, push?_of_ends n hc, hvalue, Option.bind_some]
    rw [Lexer.run_cons, hbetween, Lexer.run_cons]
    rfl

end Numbers

section Strings

theorem hexValue?_hexDigit : ∀ n < 16, hexValue? (hexDigit n) = some n := by decide

def pieceOf (c : Char) : Piece :=
  if c.toNat < 32 ∧ c ≠ '\n' ∧ c ≠ '\r' ∧ c ≠ '\t' ∧ c.toNat ≠ 8 ∧ c.toNat ≠ 12 then .unit c.toNat
  else .char c

theorem run_short {c letter : Char} (hletter : letter ≠ 'u') (h : shortEscape? letter = some c)
    (tokens : List Token) (pieces : List Piece) (rest : List Char) :
    Lexer.run ⟨tokens, .string pieces⟩ ('\\' :: letter :: rest) =
      Lexer.run ⟨tokens, .string (.char c :: pieces)⟩ rest := by
  refine (Lexer.run_of_step rfl _).trans (Lexer.run_of_step ?_ rest)
  simp only [Lexer.step, if_neg hletter, h, Option.map_some]

theorem run_numbered {n : Nat} (h : n < 256) (tokens : List Token) (pieces : List Piece)
    (rest : List Char) :
    Lexer.run ⟨tokens, .string pieces⟩
        ('\\' :: 'u' :: '0' :: '0' :: hexDigit (n / 16) :: hexDigit (n % 16) :: rest) =
      Lexer.run ⟨tokens, .string (.unit n :: pieces)⟩ rest := by
  have hhigh : Lexer.step ⟨tokens, .hex pieces 2 0⟩ (hexDigit (n / 16)) =
      some ⟨tokens, .hex pieces 1 (n / 16)⟩ := by
    simp only [Lexer.step, hexValue?_hexDigit (n / 16) (by omega), Option.map_some]
    simp
  have hlow : Lexer.step ⟨tokens, .hex pieces 1 (n / 16)⟩ (hexDigit (n % 16)) =
      some ⟨tokens, .string (.unit n :: pieces)⟩ := by
    have hvalue : n / 16 * 16 + n % 16 = n := by omega
    simp only [Lexer.step, hexValue?_hexDigit (n % 16) (by omega), Option.map_some, hvalue]
    simp
  have hzeros : Lexer.run ⟨tokens, .string pieces⟩
      ('\\' :: 'u' :: '0' :: '0' :: hexDigit (n / 16) :: hexDigit (n % 16) :: rest) =
      Lexer.run ⟨tokens, .hex pieces 2 0⟩ (hexDigit (n / 16) :: hexDigit (n % 16) :: rest) := rfl
  rw [hzeros, Lexer.run_of_step hhigh, Lexer.run_of_step hlow]

theorem run_escapeChar (tokens : List Token) (pieces : List Piece) (c : Char) (rest : List Char) :
    Lexer.run ⟨tokens, .string pieces⟩ (escapeChar c ++ rest) =
      Lexer.run ⟨tokens, .string (pieceOf c :: pieces)⟩ rest := by
  unfold escapeChar
  split
  · next h => subst h; exact run_short (by decide) rfl ..
  split
  · next h => subst h; exact run_short (by decide) rfl ..
  split
  · next h => subst h; exact run_short (by decide) rfl ..
  split
  · next h => subst h; exact run_short (by decide) rfl ..
  split
  · next h => subst h; exact run_short (by decide) rfl ..
  split
  · next h => obtain rfl : c = '\x08' := Char.toNat_inj.1 h; exact run_short (by decide) rfl ..
  split
  · next h => obtain rfl : c = '\x0c' := Char.toNat_inj.1 h; exact run_short (by decide) rfl ..
  next hquote hslash hline hreturn htab hback hform =>
  split
  · next hsmall =>
    rw [pieceOf, if_pos ⟨hsmall, hline, hreturn, htab, hback, hform⟩]
    exact run_numbered (Nat.lt_trans hsmall (by decide)) tokens pieces rest
  · next hlarge =>
    refine Lexer.run_of_step ?_ rest
    simp only [Lexer.step, if_neg hquote, if_neg hslash, pieceOf, hlarge, false_and, if_false]

theorem run_escaped (tokens : List Token) (pieces : List Piece) (cs rest : List Char) :
    Lexer.run ⟨tokens, .string pieces⟩ (cs.flatMap escapeChar ++ rest) =
      Lexer.run ⟨tokens, .string ((cs.map pieceOf).reverse ++ pieces)⟩ rest := by
  induction cs generalizing pieces with
  | nil => rfl
  | cons c cs ih =>
    rw [List.flatMap_cons, List.append_assoc, run_escapeChar, ih, List.map_cons, List.reverse_cons,
      List.append_assoc]
    rfl

theorem joinPieces_char (c : Char) (pieces : List Piece) :
    joinPieces (.char c :: pieces) = (joinPieces pieces).map (c :: ·) := by
  rw [joinPieces]

theorem joinPieces_unit {code : Nat} (h : code < 0xD800) (pieces : List Piece) :
    joinPieces (.unit code :: pieces) = (joinPieces pieces).map (Char.ofNat code :: ·) := by
  have hhigh : ¬(0xD800 ≤ code ∧ code < 0xDC00) := by omega
  have hlow : ¬(0xDC00 ≤ code ∧ code < 0xE000) := by omega
  have hhalf : ¬(0xD800 ≤ code ∧ code < 0xE000) := by omega
  cases pieces with
  | nil => exact if_neg hhalf
  | cons piece rest =>
    cases piece with
    | char c => exact if_neg hhalf
    | unit low => exact (if_neg hhigh).trans (if_neg hlow)

theorem joinPieces_map_pieceOf (cs : List Char) : joinPieces (cs.map pieceOf) = some cs := by
  induction cs with
  | nil => rfl
  | cons c cs ih =>
    rw [List.map_cons, pieceOf]
    split
    · next h =>
      have hcode : c.toNat < 0xD800 := Nat.lt_trans h.1 (by decide)
      rw [joinPieces_unit hcode, ih, Char.ofNat_toNat]
      rfl
    · rw [joinPieces_char, ih]
      rfl

theorem run_quote (text : Option String) (tokens : List Token) (rest : List Char) :
    Lexer.run ⟨tokens, .idle⟩ (quote text ++ rest) =
      Lexer.run ⟨.scalar (.string text) :: tokens, .idle⟩ rest := by
  cases text with
  | none => rfl
  | some text =>
    have hopen : Lexer.run ⟨tokens, .idle⟩ (quote (some text) ++ rest) =
        Lexer.run ⟨tokens, .string []⟩ (text.toList.flatMap escapeChar ++ ('"' :: rest)) := by
      rw [quote, List.cons_append, List.append_assoc]
      rfl
    have hclose : Lexer.step ⟨tokens, .string (text.toList.map pieceOf).reverse⟩ '"' =
        some ⟨.scalar (.string (some text)) :: tokens, .idle⟩ := by
      simp only [Lexer.step, List.reverse_reverse, joinPieces_map_pieceOf, Option.map_some,
        String.ofList_toList, if_true]
      rfl
    rw [hopen, run_escaped, List.append_nil, Lexer.run_of_step hclose]

end Strings

end MergeTrial.Json
