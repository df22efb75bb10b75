import Mathlib.Data.List.Basic
import MergeTrial.FileTree.Path

/-! Which bytes a text has: no byte of another character looks like a dot, so the first dot of a
name is found among its bytes as among its characters; and texts compare as their bytes do. -/

namespace MergeTrial.Bytes

theorem toByteArray_eq_iff {s : String} {b : Bytes} :
    s.toByteArray = ⟨b.toArray⟩ ↔ b = ofString s := by
  constructor
  · intro h
    rw [ofString, h]
  · rintro rfl
    simp [ofString]

theorem text?_eq_some_iff {b : Bytes} {s : String} : text? b = some s ↔ b = ofString s := by
  refine ⟨fun h => toByteArray_eq_iff.1 ?_, fun h => h ▸ text?_ofString s⟩
  rw [text?, String.fromUTF8?] at h
  split at h
  · obtain rfl := Option.some.inj h
    rfl
  · exact absurd h.symm (Option.some_ne_none s)

@[simp] theorem ofString_inj {s t : String} : ofString s = ofString t ↔ s = t := by
  refine ⟨fun h => ?_, fun h => h ▸ rfl⟩
  have htext := text?_ofString s
  rw [h, text?_ofString] at htext
  exact (Option.some.inj htext).symm

theorem ofString_ofList (cs : List Char) :
    ofString (String.ofList cs) = cs.flatMap String.utf8EncodeChar := by
  rw [ofString, String.toByteArray_ofList, List.utf8Encode, List.data_toByteArray]

@[simp] theorem ofString_append (s t : String) : ofString (s ++ t) = ofString s ++ ofString t := by
  simp [ofString]

theorem toNat_eq_of_mem {c : Char} {b : UInt8} (hb : b ∈ String.utf8EncodeChar c)
    (hsmall : b.toNat < 128) : c.val.toNat = b.toNat := by
  have hbyte : ∀ n < 256, b = UInt8.ofNat n → b.toNat = n := by
    intro n hn h
    rw [h, UInt8.toNat_ofNat_of_lt' hn]
  unfold String.utf8EncodeChar at hb
  simp only at hb
  split at hb
  · next h => exact (hbyte _ (by omega) (List.mem_singleton.1 hb)).symm
  · split at hb
    · simp only [List.mem_cons, List.not_mem_nil, or_false] at hb
      rcases hb with hb | hb <;> exact absurd (hbyte _ (by omega) hb) (by omega)
    · split at hb <;> simp only [List.mem_cons, List.not_mem_nil, or_false] at hb
      · rcases hb with hb | hb | hb <;> exact absurd (hbyte _ (by omega) hb) (by omega)
      · rcases hb with hb | hb | hb | hb <;> exact absurd (hbyte _ (by omega) hb) (by omega)

theorem ne_dot_of_mem {c : Char} (hc : c ≠ '.') : ∀ b ∈ String.utf8EncodeChar c, b ≠ Path.dot := by
  rintro b hb rfl
  exact hc (Char.ext (UInt32.toNat_inj.1 (toNat_eq_of_mem hb (by decide))))

theorem slash_not_mem_ofString {s : String} (hs : '/' ∉ s.toList) : Path.slash ∉ ofString s := by
  rw [← String.ofList_toList (s := s), ofString_ofList]
  intro hmem
  obtain ⟨c, hc, hb⟩ := List.mem_flatMap.1 hmem
  obtain rfl : c = '/' := Char.ext (UInt32.toNat_inj.1 (toNat_eq_of_mem hb (by decide)))
  exact hs hc

theorem not_dot_of_mem_ofString {s : String} (hs : '.' ∉ s.toList) :
    ∀ b ∈ ofString s, (b != Path.dot) = true := by
  rw [← String.ofList_toList (s := s), ofString_ofList]
  intro b hb
  obtain ⟨c, hc, hb⟩ := List.mem_flatMap.1 hb
  exact bne_iff_ne.2 (ne_dot_of_mem (fun h => hs (h ▸ hc)) b hb)

theorem ofString_dot_cons (cs : List Char) :
    ofString (String.ofList ('.' :: cs)) = Path.dot :: ofString (String.ofList cs) := by
  rw [ofString_ofList, ofString_ofList]
  rfl

theorem dropWhile_ofString (cs : List Char) :
    (ofString (String.ofList cs)).dropWhile (· != Path.dot) =
      ofString (String.ofList (cs.dropWhile (· != '.'))) := by
  simp only [ofString_ofList]
  induction cs with
  | nil => rfl
  | cons c rest ih =>
    by_cases hc : c = '.'
    · subst hc
      rfl
    · have hskip : ∀ b ∈ String.utf8EncodeChar c, (b != Path.dot) = true :=
        fun b hb => bne_iff_ne.2 (ne_dot_of_mem hc b hb)
      rw [List.flatMap_cons, List.dropWhile_append_of_pos hskip, ih, List.dropWhile_cons,
        if_pos (bne_iff_ne.2 hc)]

theorem lt_iff_digits (v w : Nat) :
    v < w ↔ v / 64 < w / 64 ∨ v / 64 = w / 64 ∧ v % 64 < w % 64 := by
  omega

theorem utf8EncodeChar_append_lt {c d : Char} (h : c < d) (xs ys : Bytes) :
    String.utf8EncodeChar c ++ xs < String.utf8EncodeChar d ++ ys := by
  have hlt : c.val.toNat < d.val.toNat := h
  have hmax : d.val.toNat < 0x110000 := d.valid.elim (fun h => by omega) And.right
  unfold String.utf8EncodeChar
  dsimp only
  generalize c.val.toNat = v at hlt
  generalize d.val.toNat = w at hlt hmax
  -- characters of as many bytes compare by their digits, others by their leading bytes
  have hlast := lt_iff_digits v w
  have hthird := lt_iff_digits (v / 64) (w / 64)
  have hsecond := lt_iff_digits (v / 4096) (w / 4096)
  rw [Nat.div_div_eq_div_mul, Nat.div_div_eq_div_mul] at hsecond hthird
  have hlead : ∀ n < 0x110000, n / 262144 % 8 = n / 262144 := by omega
  have hbyte : ∀ n < 256, n % 2 ^ 8 = n := fun n hn => Nat.mod_eq_of_lt hn
  split_ifs <;>
    simp only [List.cons_append, List.nil_append, List.cons_lt_cons_iff, UInt8.lt_iff_toNat_lt,
      ← UInt8.toNat_inj, UInt8.toNat_ofNat'] <;>
    simp (disch := omega) only [hbyte, hlead] <;>
    omega

theorem ofString_lt_of_lt {s t : String} (h : s < t) : ofString s < ofString t := by
  have key : ∀ {cs ds : List Char}, List.Lex (· < ·) cs ds →
      cs.flatMap String.utf8EncodeChar < ds.flatMap String.utf8EncodeChar := by
    intro cs ds h
    induction h with
    | @nil d ds =>
      rw [List.flatMap_cons, List.flatMap_nil]
      cases hd : String.utf8EncodeChar d with
      | nil => exact absurd hd String.utf8EncodeChar_ne_nil
      | cons b rest => exact List.nil_lt_cons ..
    | rel h => exact utf8EncodeChar_append_lt h ..
    | cons _ ih => exact List.append_left_lt ih
  rw [← String.ofList_toList (s := s), ← String.ofList_toList (s := t), ofString_ofList,
    ofString_ofList]
  exact key h

theorem ofString_lt_iff {s t : String} : ofString s < ofString t ↔ s < t := by
  refine ⟨fun h => ?_, ofString_lt_of_lt⟩
  by_contra hlt
  have hle : t ≤ s := String.not_lt.1 hlt
  by_cases hgt : t < s
  · exact List.lt_asymm h (ofString_lt_of_lt hgt)
  · obtain rfl := String.le_antisymm hle (String.not_lt.1 hgt)
    exact List.lt_irrefl _ h

theorem pairwise_mergeSort {α : Type} (key : α → Bytes) (xs : List α) :
    (xs.mergeSort fun a b => decide (key a ≤ key b)).Pairwise fun a b => key a ≤ key b := by
  refine (List.pairwise_mergeSort (fun a b c hab hbc => ?_) (fun a b => ?_) xs).imp
    of_decide_eq_true
  · exact decide_eq_true (List.le_trans (of_decide_eq_true hab) (of_decide_eq_true hbc))
  · rw [Bool.or_eq_true, decide_eq_true_iff, decide_eq_true_iff]
    exact List.le_total ..

end MergeTrial.Bytes
