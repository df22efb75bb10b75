import MergeTrial.Json.Token

/-! Numbers are read as they are written. -/

namespace MergeTrial

namespace Decimal

theorem digitChar_of_isDigit {c : Char} (h : c.isDigit = true) :
    Nat.digitChar (c.toNat - 48) = c := by
  have hbounds : 48 ≤ c.toNat ∧ c.toNat ≤ 57 := by
    simpa [Char.isDigit, UInt32.le_iff_toNat_le] using h
  apply Char.toNat_inj.1
  rw [Nat.toNat_digitChar_of_lt_ten (by omega)]
  omega

theorem map_digitChar_digitsOf (n : Nat) : (digitsOf n).map Nat.digitChar = Nat.toDigits 10 n := by
  rw [digitsOf, List.map_map]
  refine (List.map_congr_left fun c hc => ?_).trans (List.map_id _)
  exact digitChar_of_isDigit (Nat.isDigit_of_mem_toDigits (by decide) (by decide) hc)

end Decimal

namespace Json.Numeral

theorem foldlM_digits {g : Nat → Nat → Numeral}
    (hg : ∀ value count c, c.isDigit = true →
      (g value count).push? c = some (g (10 * value + (c.toNat - 48)) (count + 1)))
    {cs : List Char} (hcs : ∀ c ∈ cs, c.isDigit = true) (value count : Nat) :
    cs.foldlM push? (g value count) =
      some (g (Nat.ofDigitChars 10 cs value) (count + cs.length)) := by
  induction cs generalizing value count with
  | nil => rfl
  | cons c rest ih =>
    have hrest := ih (fun d hd => hcs d (List.mem_cons_of_mem c hd))
      (10 * value + (c.toNat - 48)) (count + 1)
    rw [List.foldlM_cons, hg value count c (hcs c List.mem_cons_self), Nat.ofDigitChars_cons,
      List.length_cons]
    exact hrest.trans (by rw [Nat.add_right_comm, Nat.add_assoc]; rfl)

theorem digit?_of_isDigit {c : Char} (h : c.isDigit = true) : digit? c = some (c.toNat - 48) :=
  if_pos h

theorem digit?_digitChar {d : Nat} (h : d < 10) : digit? (Nat.digitChar d) = some d := by
  have hdigit : (Nat.digitChar d).isDigit = true := Nat.isDigit_digitChar.trans (decide_eq_true h)
  rw [digit?_of_isDigit hdigit, Nat.toNat_digitChar_sub_48_of_lt_ten h]

def ofNat (negative : Bool) (n : Nat) : Numeral :=
  if n = 0 then ⟨.zero, negative, 0, 0, false, 0⟩ else ⟨.whole, negative, n, 0, false, 0⟩

theorem foldlM_toDigits (negative : Bool) (n : Nat) :
    (Nat.toDigits 10 n).foldlM push? ⟨.sign, negative, 0, 0, false, 0⟩ =
      some (ofNat negative n) := by
  -- on the number without its last digit
  induction n using Nat.strongRecOn with
  | ind n ih =>
    by_cases hn : n < 10
    · rw [Nat.toDigits_of_lt_base hn, List.foldlM_cons, push?, digit?_digitChar hn]
      cases n <;> rfl
    · have hsmall : n / 10 < n := by omega
      have hpos : n / 10 ≠ 0 := by omega
      have hnz : n ≠ 0 := by omega
      rw [Nat.toDigits_of_base_le (by decide) (Nat.le_of_not_lt hn), List.foldlM_append,
        ih (n / 10) hsmall, ofNat, if_neg hpos, ofNat, if_neg hnz]
      have hlast : (⟨.whole, negative, n / 10, 0, false, 0⟩ : Numeral).push?
          (Nat.digitChar (n % 10)) = some ⟨.whole, negative, n, 0, false, 0⟩ := by
        rw [push?, digit?_digitChar (Nat.mod_lt n (by decide))]
        have hvalue : n / 10 * 10 + n % 10 = n := by omega
        simp only [hvalue]
      rw [Option.bind_eq_bind, Option.bind_some, List.foldlM_cons, hlast]
      rfl

def Reads (cs : List Char) (n : Numeral) : Prop :=
  ∃ first rest start, cs = first :: rest ∧ start? first = some start ∧
    rest.foldlM push? start = some n

theorem Reads.append {cs ds : List Char} {m n : Numeral} (h : Reads cs m)
    (hds : ds.foldlM push? m = some n) : Reads (cs ++ ds) n := by
  obtain ⟨first, rest, start, rfl, hstart, hrest⟩ := h
  refine ⟨first, rest ++ ds, start, rfl, hstart, ?_⟩
  rw [List.foldlM_append, hrest]
  exact hds

theorem start?_of_isDigit {c : Char} (h : c.isDigit = true) :
    start? c = push? ⟨.sign, false, 0, 0, false, 0⟩ c := by
  have hsign : c ≠ '-' := by
    rintro rfl
    exact absurd h (by decide)
  rw [start?, if_neg hsign, push?, digit?_of_isDigit h]
  cases c.toNat - 48 <;> rfl

theorem reads_toDigits (n : Nat) : Reads (Nat.toDigits 10 n) (ofNat false n) := by
  have hread := foldlM_toDigits false n
  cases hdigits : Nat.toDigits 10 n with
  | nil => exact absurd hdigits Nat.toDigits_ne_nil
  | cons first rest =>
    have hfirst : first.isDigit = true :=
      Nat.isDigit_of_mem_toDigits (n := n) (b := 10) (by decide) (by decide)
        (hdigits ▸ List.mem_cons_self)
    rw [hdigits, List.foldlM_cons, ← start?_of_isDigit hfirst] at hread
    obtain ⟨start, hstart, hrest⟩ := Option.bind_eq_some_iff.1 hread
    exact ⟨first, rest, start, rfl, hstart, hrest⟩

theorem reads_signed (negative : Bool) (n : Nat) :
    Reads ((if negative then ['-'] else []) ++ Nat.toDigits 10 n) (ofNat negative n) := by
  cases negative with
  | false => exact reads_toDigits n
  | true => exact ⟨'-', Nat.toDigits 10 n, _, rfl, rfl, foldlM_toDigits true n⟩

def Spells (cs : List Char) (value : Json) : Prop := ∃ n, Reads cs n ∧ n.value? = some value

theorem spells_int (value : Int) : Spells value.repr.toList (.int value) := by
  cases value with
  | ofNat n =>
    refine ⟨ofNat false n, ?_, ?_⟩
    · rw [Int.repr, Nat.toList_repr]
      exact reads_toDigits n
    · cases n <;> rfl
  | negSucc n =>
    refine ⟨ofNat true (n + 1), ?_, rfl⟩
    rw [Int.repr, String.toList_append, Nat.toList_repr]
    exact reads_signed true (n + 1)

theorem push?_ofNat (negative : Bool) (n : Nat) :
    (ofNat negative n).push? '.' = some ⟨.point, negative, n, 0, false, 0⟩ ∧
      (ofNat negative n).push? 'e' = some ⟨.mark, negative, n, 0, false, 0⟩ := by
  cases n <;> exact ⟨rfl, rfl⟩

theorem foldlM_fraction {cs : List Char} (hcs : ∀ c ∈ cs, c.isDigit = true) (hne : cs ≠ [])
    (negative : Bool) (value : Nat) :
    cs.foldlM push? ⟨.point, negative, value, 0, false, 0⟩ =
      some ⟨.fraction, negative, Nat.ofDigitChars 10 cs value, cs.length, false, 0⟩ := by
  let g (value count : Nat) : Numeral :=
    ⟨if count = 0 then .point else .fraction, negative, value, count, false, 0⟩
  have hg : ∀ value count c, c.isDigit = true →
      (g value count).push? c = some (g (10 * value + (c.toNat - 48)) (count + 1)) := by
    intro value count c hc
    rw [Nat.mul_comm 10 value]
    cases count <;> simp only [g, push?, digit?_of_isDigit hc] <;> rfl
  have hread := foldlM_digits hg hcs value 0
  have hlength : cs.length ≠ 0 := fun h => hne (List.length_eq_zero_iff.1 h)
  simp only [g, Nat.zero_add, if_neg hlength] at hread
  exact hread

theorem foldlM_power (stage : Stage) (hstage : stage = .mark ∨ stage = .markSign)
    (negative powerNegative : Bool) (digits places n : Nat) :
    (Nat.toDigits 10 n).foldlM push? ⟨stage, negative, digits, places, powerNegative, 0⟩ =
      some ⟨.power, negative, digits, places, powerNegative, n⟩ := by
  let g (value count : Nat) : Numeral :=
    ⟨if count = 0 then stage else .power, negative, digits, places, powerNegative, value⟩
  have hg : ∀ value count c, c.isDigit = true →
      (g value count).push? c = some (g (10 * value + (c.toNat - 48)) (count + 1)) := by
    intro value count c hc
    rw [Nat.mul_comm 10 value]
    rcases hstage with rfl | rfl <;> cases count <;>
      simp only [g, push?, digit?_of_isDigit hc] <;> rfl
  have hread := foldlM_digits hg
    (fun c hc => Nat.isDigit_of_mem_toDigits (n := n) (b := 10) (by decide) (by decide) hc) 0 0
  have hlength : 0 + (Nat.toDigits 10 n).length ≠ 0 := by
    have hpos : 0 < (Nat.toDigits 10 n).length := Nat.length_toDigits_pos
    omega
  simp only [g, if_neg hlength, Nat.ofDigitChars_ten_toDigits] at hread
  exact hread

theorem spells_power {cs : List Char} (number : Decimal)
    (h : Reads cs ⟨.mark, number.negative, number.digits, number.places, false, 0⟩) :
    Spells (cs ++ number.power.repr.toList) (.decimal number) := by
  obtain ⟨negative, digits, places, power⟩ := number
  cases power with
  | ofNat n =>
    have hread := foldlM_power .mark (Or.inl rfl) negative false digits places n
    rw [Int.repr, Nat.toList_repr]
    exact ⟨_, h.append hread, rfl⟩
  | negSucc n =>
    have hread := foldlM_power .markSign (Or.inr rfl) negative true digits places (n + 1)
    rw [Int.repr, String.toList_append, Nat.toList_repr]
    exact ⟨_, h.append hread, rfl⟩

end Json.Numeral

namespace Decimal

theorem map_digitChar_whole (d : Decimal) :
    d.whole.map Nat.digitChar = Nat.toDigits 10 (d.digits / Nat.pow 10 d.places) :=
  map_digitChar_digitsOf _

theorem map_digitChar_fraction (d : Decimal) (h : d.places ≠ 0) :
    d.fraction.map Nat.digitChar =
      List.replicate (d.places - (Nat.toDigits 10 (d.digits % Nat.pow 10 d.places)).length) '0' ++
        Nat.toDigits 10 (d.digits % Nat.pow 10 d.places) ∧
      (Nat.toDigits 10 (d.digits % Nat.pow 10 d.places)).length ≤ d.places := by
  have hlength : (digitsOf (d.digits % Nat.pow 10 d.places)).length =
      (Nat.toDigits 10 (d.digits % Nat.pow 10 d.places)).length := List.length_map _
  have hle : (Nat.toDigits 10 (d.digits % Nat.pow 10 d.places)).length ≤ d.places :=
    (Nat.length_toDigits_le_iff (by decide) (Nat.pos_of_ne_zero h)).2
      (Nat.mod_lt _ (Nat.pow_pos (by decide)))
  refine ⟨?_, hle⟩
  simp only [fraction]
  rw [hlength, Nat.sub_eq_zero_of_le hle, List.drop_zero, List.map_append, List.map_replicate,
    map_digitChar_digitsOf]
  rfl

section
variable (d : Decimal) (h : d.places ≠ 0)
include h

theorem isDigit_fraction : ∀ c ∈ d.fraction.map Nat.digitChar, c.isDigit = true := by
  intro c hc
  rw [(map_digitChar_fraction d h).1] at hc
  rcases List.mem_append.1 hc with hc | hc
  · rw [(List.mem_replicate.1 hc).2]
    rfl
  · exact Nat.isDigit_of_mem_toDigits (by decide) (by decide) hc

theorem length_fraction : (d.fraction.map Nat.digitChar).length = d.places := by
  obtain ⟨hfraction, hle⟩ := map_digitChar_fraction d h
  rw [hfraction, List.length_append, List.length_replicate]
  omega

theorem ofDigitChars_fraction :
    Nat.ofDigitChars 10 (d.fraction.map Nat.digitChar) (d.digits / Nat.pow 10 d.places) =
      d.digits := by
  obtain ⟨hfraction, hle⟩ := map_digitChar_fraction d h
  rw [hfraction, Nat.ofDigitChars_append, Nat.ofDigitChars_replicate_zero,
    Nat.ofDigitChars_eq_ofDigitChars_zero, Nat.ofDigitChars_ten_toDigits, ← Nat.mul_assoc,
    ← Nat.pow_add, Nat.add_sub_cancel' hle]
  exact Nat.div_add_mod d.digits (Nat.pow 10 d.places)

end

theorem foldlM_pointed (d : Decimal) :
    ((if d.places = 0 then [] else '.' :: d.fraction.map Nat.digitChar) ++ ['e']).foldlM
        Json.Numeral.push? (.ofNat d.negative (d.digits / Nat.pow 10 d.places)) =
      some ⟨.mark, d.negative, d.digits, d.places, false, 0⟩ := by
  obtain ⟨hpoint, hmark⟩ :=
    Json.Numeral.push?_ofNat d.negative (d.digits / Nat.pow 10 d.places)
  by_cases hplaces : d.places = 0
  · have hdigits : d.digits / Nat.pow 10 d.places = d.digits := by
      simp only [hplaces, Nat.pow_eq, Nat.pow_zero, Nat.div_one]
    rw [if_pos hplaces, List.nil_append, List.foldlM_cons, hmark, hdigits, hplaces]
    rfl
  · have hlength := length_fraction d hplaces
    have hne : d.fraction.map Nat.digitChar ≠ [] := fun h => hplaces (by rw [← hlength, h]; rfl)
    have hfold := Json.Numeral.foldlM_fraction (isDigit_fraction d hplaces) hne d.negative
      (d.digits / Nat.pow 10 d.places)
    rw [ofDigitChars_fraction d hplaces, hlength] at hfold
    rw [if_neg hplaces, List.cons_append, List.foldlM_cons, hpoint, Option.bind_eq_bind,
      Option.bind_some, List.foldlM_append, hfold]
    rfl

theorem spells_text (d : Decimal) : Json.Numeral.Spells d.text (.decimal d) := by
  have hwhole : Json.Numeral.Reads ((if d.negative then ['-'] else []) ++ d.whole.map Nat.digitChar)
      (.ofNat d.negative (d.digits / Nat.pow 10 d.places)) := by
    rw [map_digitChar_whole]
    exact Json.Numeral.reads_signed ..
  have hspells := Json.Numeral.spells_power d (hwhole.append (foldlM_pointed d))
  rw [text]
  simpa only [List.append_assoc, List.cons_append, List.nil_append] using hspells

end Decimal
end MergeTrial
