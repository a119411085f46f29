import ParadigmScan.Proofs.Number.Notation

/-!
This module contains numbers as texts, with a point and an exponent, and that the text of a double is one that reads
back as the same double.
-/

namespace ParadigmScan

/--
The parts of a number in a text. There is a point if there are digits after it; an exponent has a mark and digits.
-/
structure Numeral where
  negative : Bool
  whole : List Char
  fraction : List Char := []
  exponent : Option (List Char × List Char) := none

namespace Numeral

def marks : List (List Char) := [['e', '+'], ['E', '+'], ['e', '-'], ['E', '-'], ['e'], ['E']]

structure IsWellFormed (n : Numeral) : Prop where
  whole_ne_nil : n.whole ≠ []
  whole_head : n.whole.head? = some '0' → n.whole = ['0']
  whole_isDigit : ∀ c ∈ n.whole, c.isDigit = true
  fraction_isDigit : ∀ c ∈ n.fraction, c.isDigit = true
  exponent : ∀ part ∈ n.exponent, part.1 ∈ marks ∧ part.2 ≠ [] ∧ ∀ c ∈ part.2, c.isDigit = true

def fractionText (n : Numeral) : List Char := if n.fraction = [] then [] else '.' :: n.fraction

def exponentText (n : Numeral) : List Char := n.exponent.elim [] fun part => part.1 ++ part.2

def unsignedText (n : Numeral) : List Char := n.whole ++ (n.fractionText ++ n.exponentText)

def text (n : Numeral) : List Char := (if n.negative then ['-'] else []) ++ n.unsignedText

def digits (n : Numeral) : Nat := Nat.ofDigitChars 10 (n.whole ++ n.fraction) 0

def scale (n : Numeral) : Int :=
  (n.exponent.elim 0 fun part =>
    if '-' ∈ part.1 then -(Nat.ofDigitChars 10 part.2 0 : Int) else Nat.ofDigitChars 10 part.2 0) -
    n.fraction.length

def isInteger (n : Numeral) : Bool := n.fraction.isEmpty && n.exponent.isNone

theorem IsWellFormed.mem_text {n : Numeral} (h : n.IsWellFormed) {c : Char} (hc : c ∈ n.text) :
    c.isDigit = true ∨ c ∈ ['.', 'e', 'E', '+', '-'] := by
  unfold text unsignedText fractionText exponentText at hc
  rw [List.mem_append] at hc
  rw [List.mem_append] at hc
  rw [List.mem_append] at hc
  rcases hc with hc | hc | hc | hc
  . split at hc
    . right
      simp_all
    . simp at hc
  . exact .inl (h.whole_isDigit c hc)
  . split at hc
    . simp at hc
    . rcases List.mem_cons.mp hc with rfl | hc
      . right
        decide
      . exact .inl (h.fraction_isDigit c hc)
  . cases hpart : n.exponent with
    | none => simp [hpart] at hc
    | some part =>
      obtain ⟨hmark, -, hdigits⟩ := h.exponent part hpart
      rw [hpart] at hc
      rcases List.mem_append.mp hc with hc | hc
      . have hmarks : ∀ mark ∈ marks, ∀ c ∈ mark, c ∈ ['.', 'e', 'E', '+', '-'] := by simp [marks]
        exact .inr (hmarks _ hmark c hc)
      . exact .inl (hdigits c hc)

end Numeral

namespace Binary64

namespace Decimal

theorem ofDigitChars_exponentChars (n : Nat) : Nat.ofDigitChars 10 (exponentChars n) 0 = n := by
  unfold exponentChars
  rw [Nat.ofDigitChars_append]
  rw [Nat.ofDigitChars_replicate_zero]
  rw [mul_zero]
  exact Nat.ofDigitChars_ten_toDigits

theorem isDigit_of_mem_exponentChars {n : Nat} {c : Char} (hc : c ∈ exponentChars n) : c.isDigit = true := by
  rcases List.mem_append.mp hc with hc | hc
  . exact isDigit_of_mem_replicate hc
  . exact Nat.isDigit_of_mem_toDigits (by decide) (by decide) hc

structure Writes (n : Numeral) (d : Decimal) : Prop where
  isWellFormed : n.IsWellFormed
  not_isInteger : n.isInteger = false
  text : n.text = (if n.negative then ['-'] else []) ++ d.text.toList
  value : (n.digits * 10 ^ n.scale : ℚ) = d.value
  scale : n.scale = d.point - d.count ∨ n.scale = -1

theorem isDigit_of_mem_toDigits {n : Nat} (c : Char) (hc : c ∈ Nat.toDigits 10 n) : c.isDigit = true :=
  Nat.isDigit_of_mem_toDigits (by decide) (by decide) hc

def powerNumeral (d : Decimal) (negative : Bool) : Numeral where
  negative
  whole := d.chars.take 1
  fraction := d.chars.drop 1
  exponent := some (['e', if d.point - 1 < 0 then '-' else '+'], exponentChars (d.point - 1).natAbs)

variable {d : Decimal} (h : d.IsFull) (negative : Bool)

include h

theorem IsFull.writes_point (places : Nat) (hplaces : 1 ≤ places) (hpoint : d.point = d.count - places)
    (hlow : -4 < d.point) (hhigh : d.point ≤ 16) :
    Writes
      { negative, whole := Nat.toDigits 10 (d.digits / 10 ^ places), fraction := lastDigits places d.digits }
      d := by
  have hne : lastDigits places d.digits ≠ [] := by
    apply List.ne_nil_of_length_pos
    rw [length_lastDigits]
    exact hplaces
  have hscale : (-places : Int) = d.point - d.count := by omega
  constructor
  . exact ⟨Nat.toDigits_ne_nil, toDigits_of_head, isDigit_of_mem_toDigits,
      fun c => isDigit_of_mem_lastDigits, by simp⟩
  . simp [Numeral.isInteger, hne]
  . rw [h.toList_text_of_eq_sub places hplaces hpoint hlow hhigh]
    simp [Numeral.text, Numeral.unsignedText, Numeral.fractionText, Numeral.exponentText, hne]
  . unfold Numeral.digits Numeral.scale Decimal.value
    rw [Nat.ofDigitChars_append]
    rw [Nat.ofDigitChars_ten_toDigits]
    rw [ofDigitChars_lastDigits]
    rw [Nat.div_add_mod]
    rw [length_lastDigits]
    rw [← hscale]
    simp
  . left
    unfold Numeral.scale
    rw [length_lastDigits]
    simpa using hscale

theorem IsFull.writes_whole (trailing : Nat) (hpoint : d.point = d.count + trailing) (hhigh : d.point ≤ 16) :
    Writes { negative, whole := Nat.toDigits 10 (d.digits * 10 ^ trailing), fraction := ['0'] } d := by
  constructor
  . exact ⟨Nat.toDigits_ne_nil, toDigits_of_head, isDigit_of_mem_toDigits, by simp, by simp⟩
  . rfl
  . rw [h.toList_text_of_le (by omega) hhigh]
    rw [show (d.point - d.count).toNat = trailing by omega]
    rw [toDigits_mul_ten_pow h.digits_pos]
    simp [Numeral.text, Numeral.unsignedText, Numeral.fractionText, Numeral.exponentText, chars]
  . unfold Numeral.digits Numeral.scale Decimal.value
    rw [Nat.ofDigitChars_append]
    rw [Nat.ofDigitChars_ten_toDigits]
    rw [show d.point - d.count = trailing by omega]
    rw [show Nat.ofDigitChars 10 ['0'] (d.digits * 10 ^ trailing) = 10 * (d.digits * 10 ^ trailing) from rfl]
    push_cast
    rw [zpow_natCast]
    norm_num
    ring
  . exact .inr rfl

theorem IsFull.scale_powerNumeral : (d.powerNumeral negative).scale = d.point - d.count := by
  have hlength := h.length_chars
  have hcount := h.count_pos
  have hmark : '-' ∈ ['e', if d.point - 1 < 0 then '-' else '+'] ↔ d.point - 1 < 0 := by
    split <;> simp_all
  unfold powerNumeral Numeral.scale
  simp only [Option.elim_some, hmark, ofDigitChars_exponentChars, List.length_drop, hlength]
  split <;> omega

theorem IsFull.writes_power (hfar : ¬(-4 < d.point ∧ d.point ≤ 16)) :
    Writes (d.powerNumeral negative) d := by
  have hlength := h.length_chars
  have hcount := h.count_pos
  have hscale := h.scale_powerNumeral negative
  have hdigits : ∀ c ∈ d.chars, c.isDigit = true := isDigit_of_mem_toDigits
  have hdrop : d.chars.drop 1 = [] ↔ d.count = 1 := by
    rw [List.drop_eq_nil_iff]
    omega
  have hone : (d.chars.take 1).length = 1 := by
    rw [List.length_take]
    omega
  constructor
  . constructor
    . exact List.ne_nil_of_length_pos (hone ▸ one_pos)
    . obtain ⟨first, hfirst⟩ := List.length_eq_one_iff.mp hone
      simp [powerNumeral, hfirst]
    . exact fun c hc => hdigits c (List.mem_of_mem_take hc)
    . exact fun c hc => hdigits c (List.mem_of_mem_drop hc)
    . intro part hpart
      cases hpart
      refine ⟨?_, ?_, fun c => isDigit_of_mem_exponentChars⟩
      . dsimp only
        split
        . simp [Numeral.marks]
        . simp [Numeral.marks]
      . exact List.append_ne_nil_of_right_ne_nil _ Nat.toDigits_ne_nil
  . simp [Numeral.isInteger, powerNumeral]
  . rw [h.toList_text_of_far hfar]
    simp only [Numeral.text, Numeral.unsignedText, Numeral.fractionText, Numeral.exponentText, powerNumeral, hdrop,
      Option.elim_some]
    simp
  . rw [hscale]
    unfold Numeral.digits powerNumeral Decimal.value
    rw [List.take_append_drop]
    rw [show Nat.ofDigitChars 10 d.chars 0 = d.digits from Nat.ofDigitChars_ten_toDigits]
  . exact .inl hscale

theorem IsFull.exists_writes : ∃ n : Numeral, n.negative = negative ∧ Writes n d := by
  by_cases hnear : -4 < d.point ∧ d.point ≤ 16
  . rcases lt_or_ge d.point d.count with hlt | hge
    . obtain ⟨places, hplaces⟩ := Int.eq_ofNat_of_zero_le (by omega : 0 ≤ d.count - d.point)
      exact ⟨_, rfl, h.writes_point negative places (by omega) (by omega) hnear.1 hnear.2⟩
    . obtain ⟨trailing, htrailing⟩ := Int.eq_ofNat_of_zero_le (by omega : 0 ≤ d.point - d.count)
      exact ⟨_, rfl, h.writes_whole negative trailing (by omega) hnear.2⟩
  . exact ⟨_, rfl, h.writes_power negative hnear⟩

end Decimal

theorem RoundsTo.pos {m : Nat} {e : Int} {y : ℚ} (hm : 0 < m) (h : RoundsTo m e y) : 0 < y := by
  have hlow : 0 < lowQuarters m e := by
    unfold lowQuarters
    split <;> omega
  have hlow : (0 : ℚ) < lowQuarters m e := by exact_mod_cast hlow
  exact (mul_pos hlow (two_zpow_pos _)).trans_le h.ge

theorem IsNormal.ofDecimal_eq {m digits : Nat} {e scale : Int} (h : IsNormal m e)
    (hrounds : RoundsTo m e (digits * 10 ^ scale)) (hlow : -400 ≤ scale) (hhigh : scale ≤ 400)
    (negative : Bool) : ofDecimal negative digits scale = .finite negative m e := by
  have hdigits : digits ≠ 0 := by
    rintro rfl
    have hpos := hrounds.pos h.pos
    simp at hpos
  have hsize : ¬scale < -400 - (digits.log2 + 1 : Int) := by omega
  unfold ofDecimal
  simp only [beq_iff_eq, hdigits, ↓reduceIte, not_lt.mpr hhigh, hsize]
  split
  . next hscale =>
    obtain ⟨n, rfl⟩ := Int.eq_ofNat_of_zero_le hscale
    apply h.ofQuotient_eq one_pos
    simpa using hrounds
  . next hscale =>
    obtain ⟨n, hn⟩ := Int.eq_ofNat_of_zero_le (by omega : 0 ≤ -scale)
    obtain rfl : scale = -n := by omega
    apply h.ofQuotient_eq (Nat.pow_pos (by decide))
    simpa [div_eq_mul_inv] using hrounds

/--
The double has the one form that rounding gives to it.
-/
def IsCanonical : Binary64 → Prop
  | .finite _ significand exponent => IsNormal significand exponent ∨ significand = 0 ∧ exponent = -1074
  | _ => False

theorem IsShortest.point_bounds {m : Nat} {e : Int} {d : Decimal} (hnormal : IsNormal m e)
    (h : IsShortest m e d) : -324 < d.point ∧ d.point - 2 < 309 := by
  have hone : (1 : ℚ) ≤ m := by exact_mod_cast hnormal.pos
  have hm : (m : ℚ) < 2 ^ (53 : Int) := by exact_mod_cast hnormal.lt
  constructor
  . apply ten_zpow_lt_iff.mp
    calc
      (10 : ℚ) ^ (-324 : Int) ≤ 2 ^ (-1074 : Int) := ten_zpow_le_two_zpow (by decide) (by decide)
      _ ≤ 2 ^ e := two_zpow_le hnormal.ge
      _ ≤ m * 2 ^ e := le_mul_of_one_le_left (two_zpow_pos e).le hone
      _ < 10 ^ d.point := h.lt_point
  . apply ten_zpow_lt_iff.mp
    calc
      (10 : ℚ) ^ (d.point - 2) ≤ m * 2 ^ e := h.point_le
      _ < 2 ^ (53 : Int) * 2 ^ e := mul_lt_mul_of_pos_right hm (two_zpow_pos e)
      _ = 2 ^ (53 + e) := (two_zpow_add 53 e).symm
      _ ≤ 2 ^ (1024 : Int) := two_zpow_le (by linarith [hnormal.le])
      _ ≤ 10 ^ (309 : Int) := two_zpow_le_ten_zpow (by decide) (by decide)

theorem IsCanonical.exists_numeral {x : Binary64} (h : x.IsCanonical) :
    ∃ n : Numeral, n.IsWellFormed ∧ n.isInteger = false ∧ n.text = x.text.toList ∧
      ofDecimal n.negative n.digits n.scale = x := by
  cases x with
  | infinite | nan => cases h
  | finite negative significand exponent =>
    rcases h with hnormal | ⟨rfl, rfl⟩
    . have hs := hnormal.isShortest
      obtain ⟨n, rfl, hn⟩ := hs.full.exists_writes negative
      obtain ⟨hlow, hhigh⟩ := hs.point_bounds hnormal
      have hcount := hs.count_le
      have hscale := hn.scale
      refine ⟨n, hn.isWellFormed, hn.not_isInteger, ?_, ?_⟩
      . rw [hn.text]
        have hne := hnormal.pos.ne'
        cases n.negative <;> simp [Binary64.text, hne]
      . apply hnormal.ofDecimal_eq
        . rw [hn.value]
          exact hs.roundsTo
        . omega
        . omega
    . refine ⟨{ negative, whole := ['0'], fraction := ['0'] }, ?_, rfl, ?_, rfl⟩
      . exact ⟨by simp, by simp, by simp, by simp, by simp⟩
      . cases negative <;> rfl

end Binary64

end ParadigmScan
