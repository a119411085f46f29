import ParadigmScan.Proofs.Number.Shortest

/-!
This module contains the four ways to write a decimal: with the point in front of its digits, behind them or between
them, and with an exponent.
-/

namespace ParadigmScan

namespace Binary64

section Digits

theorem toDigits_of_head {n : Nat} (h : (Nat.toDigits 10 n).head? = some '0') :
    Nat.toDigits 10 n = ['0'] := by
  induction n using Nat.strongRecOn with
  | _ n ih =>
    by_cases hlt : n < 10
    . rw [Nat.toDigits_of_lt_base hlt] at h ⊢
      simpa using h
    . rw [Nat.toDigits_of_base_le (by decide) (by omega)] at h
      rw [List.head?_append_of_ne_nil _ Nat.toDigits_ne_nil] at h
      -- what stands before the last digit is no zero
      have hzero : n / 10 = 0 := by
        have hvalue := congrArg (Nat.ofDigitChars 10 · 0) (ih (n / 10) (by omega) h)
        simp only [Nat.ofDigitChars_ten_toDigits] at hvalue
        exact hvalue.trans (by decide)
      omega

theorem toDigits_mul_ten {n : Nat} (hn : 0 < n) :
    Nat.toDigits 10 (10 * n) = Nat.toDigits 10 n ++ ['0'] := by
  rw [Nat.toDigits_of_base_le (by decide) (by omega)]
  rw [Nat.mul_div_cancel_left n (by decide)]
  rw [Nat.mul_mod_right]
  rfl

theorem toDigits_mul_ten_pow {n : Nat} (hn : 0 < n) (k : Nat) :
    Nat.toDigits 10 (n * 10 ^ k) = Nat.toDigits 10 n ++ List.replicate k '0' := by
  induction k with
  | zero => simp
  | succ k ih =>
    rw [pow_succ]
    rw [← mul_assoc]
    rw [mul_comm _ 10]
    rw [toDigits_mul_ten (by positivity)]
    rw [ih]
    rw [List.append_assoc]
    rw [← List.replicate_succ']

def lastDigits : Nat → Nat → List Char
  | 0, _ => []
  | count + 1, n => lastDigits count (n / 10) ++ [Nat.digitChar (n % 10)]

theorem length_lastDigits (count n : Nat) : (lastDigits count n).length = count := by
  induction count generalizing n with
  | zero => rfl
  | succ count ih => simp [lastDigits, ih]

theorem toDigits_append_lastDigits {n : Nat} (count : Nat) (hn : 10 ^ count ≤ n) :
    Nat.toDigits 10 n = Nat.toDigits 10 (n / 10 ^ count) ++ lastDigits count n := by
  induction count generalizing n with
  | zero => simp [lastDigits]
  | succ count ih =>
    have hpos : 0 < 10 ^ count := Nat.pow_pos (by decide)
    rw [pow_succ'] at hn ⊢
    rw [Nat.toDigits_of_base_le (by decide) (by omega)]
    rw [ih ((Nat.le_div_iff_mul_le (by decide)).mpr (by omega))]
    rw [Nat.div_div_eq_div_mul]
    rw [List.append_assoc]
    rfl

theorem lastDigits_of_lt {n count : Nat} (hcount : 1 ≤ count) (hn : n < 10 ^ count) :
    lastDigits count n =
      List.replicate (count - (Nat.toDigits 10 n).length) '0' ++ Nat.toDigits 10 n := by
  induction count, hcount using Nat.le_induction generalizing n with
  | base =>
    rw [pow_one] at hn
    rw [Nat.toDigits_of_lt_base hn]
    simp [lastDigits, Nat.mod_eq_of_lt hn]
  | succ count hcount ih =>
    rw [pow_succ'] at hn
    rw [lastDigits]
    rw [ih (Nat.div_lt_of_lt_mul hn)]
    rcases Nat.lt_or_ge n 10 with hsmall | hlarge
    . rw [Nat.div_eq_of_lt hsmall]
      rw [Nat.mod_eq_of_lt hsmall]
      rw [Nat.toDigits_of_lt_base hsmall]
      rw [Nat.toDigits_zero]
      rw [← List.replicate_succ']
      simp [Nat.sub_add_cancel hcount]
    . rw [Nat.toDigits_of_base_le (by decide) hlarge]
      simp

theorem ofDigitChars_lastDigits (count n init : Nat) :
    Nat.ofDigitChars 10 (lastDigits count n) init = 10 ^ count * init + n % 10 ^ count := by
  induction count generalizing n with
  | zero => simp [lastDigits, Nat.mod_one]
  | succ count ih =>
    rw [lastDigits]
    rw [Nat.ofDigitChars_append]
    rw [ih]
    rw [Nat.ofDigitChars_cons_digitChar_of_lt_ten (Nat.mod_lt n (by decide))]
    rw [Nat.ofDigitChars_nil]
    rw [pow_succ']
    rw [Nat.mod_mul]
    ring

theorem isDigit_of_mem_lastDigits {count n : Nat} {c : Char} (hc : c ∈ lastDigits count n) :
    c.isDigit = true := by
  induction count generalizing n with
  | zero => simp [lastDigits] at hc
  | succ count ih =>
    rw [lastDigits] at hc
    rw [List.mem_append] at hc
    rcases hc with hc | hc
    . exact ih hc
    . rw [List.mem_singleton] at hc
      rw [hc]
      apply Nat.isDigit_of_mem_toDigits (b := 10) (n := n % 10) (by decide) (by decide)
      rw [Nat.toDigits_of_lt_base (Nat.mod_lt n (by decide))]
      exact List.mem_singleton_self _

theorem isDigit_of_mem_replicate {count : Nat} {c : Char} (hc : c ∈ List.replicate count '0') :
    c.isDigit = true := by
  rw [(List.mem_replicate.mp hc).2]
  rfl

theorem toList_toString_int (n : Int) :
    (toString n).toList = (if n < 0 then ['-'] else []) ++ Nat.toDigits 10 n.natAbs := by
  cases n with
  | ofNat n =>
    rw [if_neg (by simp)]
    show (toString n).toList = _
    rw [Nat.toString_eq_ofList_toDigits]
    simp
  | negSucc n =>
    rw [if_pos (Int.negSucc_lt_zero n)]
    show ("-" ++ toString (n + 1)).toList = _
    rw [Nat.toString_eq_ofList_toDigits]
    simp

theorem length_toString (n : Nat) : (toString n).length = (Nat.toDigits 10 n).length := by
  rw [Nat.toString_eq_ofList_toDigits]
  exact String.length_ofList

end Digits

namespace Decimal

def chars (d : Decimal) : List Char := Nat.toDigits 10 d.digits

variable {d : Decimal} (h : d.IsFull)

include h

theorem IsFull.digits_pos : 0 < d.digits :=
  (Nat.pow_pos (by decide)).trans_le h.le_digits

theorem IsFull.length_chars : d.chars.length = d.count := by
  have hpos := h.count_pos
  have hle : d.chars.length ≤ d.count :=
    (Nat.length_toDigits_le_iff (by decide) hpos).mpr h.digits_lt
  have hge : ¬d.chars.length ≤ d.count - 1 := by
    intro hlt
    rcases Nat.eq_zero_or_pos (d.count - 1) with hzero | hpos
    . rw [hzero] at hlt
      exact Nat.toDigits_ne_nil (List.eq_nil_of_length_eq_zero (Nat.le_zero.mp hlt))
    . have hlt := (Nat.length_toDigits_le_iff (by decide) hpos).mp hlt
      exact absurd h.le_digits hlt.not_ge
  omega

theorem IsFull.toList_digitText : d.digitText.toList = d.chars := by
  have hlength := h.length_chars
  unfold chars at hlength
  unfold digitText zeros
  simp only [length_toString]
  rw [hlength]
  rw [Nat.sub_self]
  rw [Nat.toString_eq_ofList_toDigits]
  simp [chars]

theorem IsFull.length_digitText : d.digitText.length = d.count := by
  rw [← String.length_toList]
  rw [h.toList_digitText]
  exact h.length_chars

theorem IsFull.toList_text_of_nonpos (hlow : -4 < d.point) (hhigh : d.point ≤ 0) :
    d.text.toList = '0' :: '.' :: (List.replicate (-d.point).toNat '0' ++ d.chars) := by
  have hplain : (decide (-4 < d.point) && decide (d.point ≤ 16)) = true := by
    simp only [Bool.and_eq_true, decide_eq_true_eq]
    omega
  unfold text zeros
  simp only [hplain, hhigh, ↓reduceIte]
  simp [h.toList_digitText]

theorem IsFull.toList_text_of_le (hlow : d.count ≤ d.point) (hhigh : d.point ≤ 16) :
    d.text.toList = d.chars ++ List.replicate (d.point - d.count).toNat '0' ++ ['.', '0'] := by
  have hpos := h.count_pos
  have hplain : (decide (-4 < d.point) && decide (d.point ≤ 16)) = true := by
    simp only [Bool.and_eq_true, decide_eq_true_eq]
    omega
  have hpoint : ¬d.point ≤ 0 := by omega
  unfold text zeros
  simp only [hplain, hpoint, h.length_digitText, hlow, ↓reduceIte]
  simp [h.toList_digitText]

theorem IsFull.toList_text_of_lt (hlow : 0 < d.point) (hhigh : d.point < d.count) (hplain : d.point ≤ 16) :
    d.text.toList = d.chars.take d.point.toNat ++ '.' :: d.chars.drop d.point.toNat := by
  have hplain : (decide (-4 < d.point) && decide (d.point ≤ 16)) = true := by
    simp only [Bool.and_eq_true, decide_eq_true_eq]
    omega
  have hpoint : ¬d.point ≤ 0 := by omega
  have hcount : ¬d.count ≤ d.point := by omega
  unfold text
  simp only [hplain, hpoint, h.length_digitText, hcount, ↓reduceIte]
  simp [h.toList_digitText]

theorem IsFull.toList_text_of_eq_sub (count : Nat) (hcount : 1 ≤ count) (hpoint : d.point = d.count - count)
    (hlow : -4 < d.point) (hhigh : d.point ≤ 16) :
    d.text.toList = Nat.toDigits 10 (d.digits / 10 ^ count) ++ '.' :: lastDigits count d.digits := by
  have hlength := h.length_chars
  rcases le_or_gt d.point 0 with hnonpos | hpos
  . have hlt : d.digits < 10 ^ count :=
      h.digits_lt.trans_le (Nat.pow_le_pow_right (by decide) (by omega))
    rw [h.toList_text_of_nonpos hlow hnonpos]
    rw [Nat.div_eq_of_lt hlt]
    rw [lastDigits_of_lt hcount hlt]
    unfold chars at hlength ⊢
    rw [hlength]
    rw [show (-d.point).toNat = count - d.count by omega]
    rfl
  . have hge : 10 ^ count ≤ d.digits :=
      (Nat.pow_le_pow_right (by decide) (by omega)).trans h.le_digits
    have hsplit : d.chars = _ := toDigits_append_lastDigits count hge
    rw [h.toList_text_of_lt hpos (by omega) hhigh]
    rw [hsplit]
    rw [hsplit] at hlength
    rw [List.length_append] at hlength
    rw [length_lastDigits] at hlength
    rw [show d.point.toNat = (Nat.toDigits 10 (d.digits / 10 ^ count)).length by omega]
    rw [List.take_left]
    rw [List.drop_left]

def exponentChars (n : Nat) : List Char :=
  List.replicate (2 - (Nat.toDigits 10 n).length) '0' ++ Nat.toDigits 10 n

theorem IsFull.toList_text_of_far (hfar : ¬(-4 < d.point ∧ d.point ≤ 16)) :
    d.text.toList = d.chars.take 1 ++ (if d.count = 1 then [] else '.' :: d.chars.drop 1) ++
      'e' :: (if d.point - 1 < 0 then '-' else '+') :: exponentChars (d.point - 1).natAbs := by
  have hplain : (decide (-4 < d.point) && decide (d.point ≤ 16)) = false := by
    simpa [Bool.and_eq_false_iff, not_and_or] using hfar
  have hlength := h.length_chars
  have htail : (String.ofList (d.chars.drop 1)).isEmpty = decide (d.count = 1) := by
    rw [Bool.eq_iff_iff]
    rw [String.isEmpty_iff]
    rw [← String.toList_inj]
    rw [String.toList_ofList]
    rw [decide_eq_true_eq]
    rw [String.toList_empty]
    rw [List.drop_eq_nil_iff]
    have := h.count_pos
    omega
  unfold text zeros exponentChars
  simp only [hplain, Bool.false_eq_true, ↓reduceIte, h.toList_digitText, htail, length_toString,
    decide_eq_true_eq]
  by_cases hone : d.count = 1
  . by_cases hneg : d.point - 1 < 0
    . simp [hone, hneg]
    . simp [hone, hneg]
  . by_cases hneg : d.point - 1 < 0
    . simp [hone, hneg]
    . simp [hone, hneg]

end Decimal

end Binary64

end ParadigmScan
