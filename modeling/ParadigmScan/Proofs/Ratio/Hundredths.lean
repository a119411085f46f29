import ParadigmScan.Proofs.Number.Notation
import ParadigmScan.Report

/-!
This module contains how the ratio of two totals is rounded to hundredths. The double in between does no harm as long
as the totals are not too large: its error is smaller than the distance of a quotient to the nearest tie, unless the
quotient is a tie itself.
-/

namespace ParadigmScan

namespace Binary64

theorem divNearestUp_eq (num : Nat) {den : Nat} (hden : 0 < den) :
    divNearestUp num den = ⌊(num / den : ℚ) + 1 / 2⌋₊ := by
  have hpos : (0 : ℚ) < den := by exact_mod_cast hden
  unfold divNearestUp
  rw [← @Nat.floor_div_eq_div ℚ]
  congr 1
  push_cast
  field_simp

theorem IsNearest.abs_sub_le {num den : Nat} (hden : 0 < den) {q : ℚ} (h : IsNearest (num / den) q)
    (hlt : (num / den : ℚ) < limit) :
    |q - num / den| ≤ num / den / 2 ^ 53 ∨
      |q - num / den| ≤ 2 ^ (-1075 : Int) ∧ (num / den : ℚ) < 2 ^ (-1021 : Int) := by
  rcases Nat.eq_zero_or_pos num with rfl | hnum
  . simp only [Nat.cast_zero, zero_div] at h ⊢
    rw [h.unique isNearest_zero]
    simp
  . rw [h.unique (isNearest_rounded hnum hden hlt)]
    have herror : |(rounded num den : ℚ) * 2 ^ lastBit num den - num / den| ≤
        1 / 2 * 2 ^ lastBit num den := by
      rw [abs_mul_two_zpow_sub]
      exact mul_le_mul_of_nonneg_right (isNearestInt_rounded num hden).le (two_zpow_pos _).le
    by_cases hlast : lastBit num den = -1074
    . right
      have hsmall := lt_two_zpow_lastBit hnum hden
      rw [hlast] at herror hsmall ⊢
      refine ⟨herror.trans_eq ?_, hsmall⟩
      rw [show (-1075 : Int) = -1 + -1074 from rfl]
      rw [two_zpow_add]
      norm_num
    . left
      apply herror.trans
      have hle := two_zpow_lastBit_le hnum hden hlast
      rw [two_zpow_add] at hle
      rw [le_div_iff₀ (by norm_num)]
      norm_num at hle ⊢
      linarith

end Binary64

namespace Ratio

open Binary64

/--
The text is a decimal number with two digits after the point, and stands for so many hundredths. The digits before the
point are those of a whole number, without a zero in front.
-/
def Shows (text : String) (negative : Bool) (hundredths : Nat) : Prop :=
  ∃ whole cents : List Char,
    text.toList = (if negative then ['-'] else []) ++ whole ++ '.' :: cents ∧
    whole ≠ [] ∧ (whole.head? = some '0' → whole = ['0']) ∧ cents.length = 2 ∧
    (∀ c ∈ whole ++ cents, c.isDigit = true) ∧
    Nat.ofDigitChars 10 (whole ++ cents) 0 = hundredths

theorem length_cents_le (n : Nat) : (Nat.toDigits 10 (n % 100)).length ≤ 2 := by
  rw [Nat.length_toDigits_le_iff (by decide) (by decide)]
  exact Nat.mod_lt n (by decide)

theorem shows_display (r : Ratio) : Shows r.display r.negative r.hundredths := by
  have hlength := length_cents_le r.hundredths
  refine ⟨Nat.toDigits 10 (r.hundredths / 100),
    List.replicate (2 - (Nat.toDigits 10 (r.hundredths % 100)).length) '0' ++
      Nat.toDigits 10 (r.hundredths % 100), ?_, Nat.toDigits_ne_nil, toDigits_of_head, ?_, ?_, ?_⟩
  . unfold display zeros
    simp only [Nat.toString_eq_ofList_toDigits]
    cases r.negative <;> simp
  . rw [List.length_append]
    rw [List.length_replicate]
    omega
  . intro c hc
    simp only [List.mem_append, List.mem_replicate] at hc
    rcases hc with hc | ⟨-, rfl⟩ | hc
    . exact Nat.isDigit_of_mem_toDigits (by decide) (by decide) hc
    . decide
    . exact Nat.isDigit_of_mem_toDigits (by decide) (by decide) hc
  . rw [Nat.ofDigitChars_append]
    rw [Nat.ofDigitChars_append]
    rw [Nat.ofDigitChars_replicate_zero]
    rw [Nat.ofDigitChars_ten_toDigits]
    rw [Nat.ofDigitChars_eq_ofDigitChars_zero]
    rw [Nat.ofDigitChars_ten_toDigits]
    rw [← mul_assoc]
    rw [← pow_add]
    rw [Nat.add_sub_of_le hlength]
    exact Nat.div_add_mod r.hundredths 100

/--
A number to hundredths, halves up.
-/
def roundUp (x : ℚ) : Nat := ⌊100 * x + 1 / 2⌋₊

theorem ofBinary64_finite (negative : Bool) (significand : Nat) (exponent : Int) :
    ofBinary64 (.finite negative significand exponent) =
      if roundUp (significand * 2 ^ exponent) < 10 ^ 28 then
        .ok { negative, hundredths := roundUp (significand * 2 ^ exponent) }
      else .error .tooManyDigits := by
  have hden : 0 < (fraction significand exponent).2 := scaleDown_pos one_pos significand _
  have hround : divNearestUp (100 * (fraction significand exponent).1)
      (fraction significand exponent).2 = roundUp (significand * 2 ^ exponent) := by
    rw [divNearestUp_eq _ hden]
    unfold roundUp
    rw [← fraction_div]
    push_cast
    rw [mul_div_assoc]
  unfold ofBinary64
  simp only [hround]
  rfl

def isNegative (oop fp : Int) : Bool := decide (oop < 0) != decide (fp < 0)

theorem signed_natAbs (k : Int) : (k : ℚ) = signed (decide (k < 0)) k.natAbs := by
  unfold signed
  rcases lt_or_ge k 0 with hneg | hpos
  . have hcast : ((k.natAbs : ℤ) : ℚ) = -k := by
      rw [Int.ofNat_natAbs_of_nonpos hneg.le]
      push_cast
      rfl
    simp only [hneg, decide_true, ↓reduceIte]
    rw [Int.cast_natCast] at hcast
    rw [hcast]
    ring
  . have hcast : ((k.natAbs : ℤ) : ℚ) = k := by
      rw [Int.natAbs_of_nonneg hpos]
    rw [Int.cast_natCast] at hcast
    simp [hpos.not_gt, hcast]

theorem div_eq_signed (oop fp : Int) :
    (oop / fp : ℚ) = signed (isNegative oop fp) (oop.natAbs / fp.natAbs) := by
  rw [signed_natAbs oop]
  rw [signed_natAbs fp]
  unfold isNegative signed
  cases decide (oop < 0) <;> cases decide (fp < 0) <;> simp [neg_div, div_neg]

theorem abs_div_eq (oop fp : Int) : |(oop / fp : ℚ)| = oop.natAbs / fp.natAbs := by
  rw [div_eq_signed]
  rw [abs_signed]
  exact abs_of_nonneg (by positivity)

theorem ofTotals_of_lt {oop fp : Int} (hfp : fp ≠ 0) (hlt : |(oop / fp : ℚ)| < limit) :
    ∃ q, IsNearest |(oop / fp : ℚ)| q ∧
      ofTotals oop fp =
        if roundUp q < 10 ^ 28 then
          .ok (some { negative := isNegative oop fp, hundredths := roundUp q })
        else .error .tooManyDigits := by
  have hden : 0 < fp.natAbs := Int.natAbs_pos.mpr hfp
  rw [abs_div_eq] at hlt ⊢
  obtain ⟨significand, exponent, hfinite, hnearest⟩ :=
    exists_ofQuotient_eq_finite (isNegative oop fp) hden hlt
  refine ⟨_, hnearest, ?_⟩
  unfold isNegative at hfinite
  unfold ofTotals quotient
  rw [hfinite]
  rw [ofBinary64_finite]
  simp only [beq_iff_eq, hfp, ↓reduceIte]
  split <;> rfl

/--
The number lies in the middle between two hundredths.
-/
def IsTie (x : ℚ) : Prop := ∃ k : ℤ, Odd k ∧ x = k / 200

def IsEighth (x : ℚ) : Prop := ∃ k : ℤ, x = k / 8

theorem roundUp_div (num : Nat) {den : Nat} (hden : 0 < den) :
    roundUp (num / den) = (200 * num + den) / (2 * den) := by
  have hpos : (0 : ℚ) < den := by exact_mod_cast hden
  unfold roundUp
  rw [← @Nat.floor_div_eq_div ℚ]
  congr 1
  push_cast
  field_simp
  ring

theorem isTie_div_iff (num : Nat) {den : Nat} (hden : 0 < den) :
    IsTie (num / den) ↔ (200 * num + den) % (2 * den) = 0 := by
  have hpos : (0 : ℚ) < den := by exact_mod_cast hden
  rw [← Nat.dvd_iff_mod_eq_zero]
  constructor
  . rintro ⟨k, ⟨half, rfl⟩, heq⟩
    rw [div_eq_div_iff hpos.ne' (by norm_num)] at heq
    have heq : (num : ℤ) * 200 = (2 * half + 1) * den := by exact_mod_cast heq
    rw [← Int.natCast_dvd_natCast]
    refine ⟨half + 1, ?_⟩
    push_cast
    linarith
  . rintro ⟨half, heq⟩
    refine ⟨2 * half - 1, ⟨half - 1, by ring⟩, ?_⟩
    have heq : (200 * num + den : ℚ) = 2 * den * half := by exact_mod_cast heq
    rw [div_eq_div_iff hpos.ne' (by norm_num)]
    push_cast
    linarith

section Error

variable {num den : Nat} (hden : 0 < den) (hsmall : 200 * num < 2 ^ 53)

include hden hsmall

theorem lt_limit_of_small : (num / den : ℚ) < limit := by
  have hnum : (num : ℚ) < 2 ^ 53 := by exact_mod_cast (by omega : num < 2 ^ 53)
  have hone : (1 : ℚ) ≤ den := by exact_mod_cast hden
  calc
    (num / den : ℚ) ≤ num := div_le_self (by positivity) hone
    _ < 2 ^ (53 : Int) := by exact_mod_cast hnum
    _ ≤ 2 ^ (1023 : Int) := two_zpow_le (by decide)
    _ < limit := lt_limit

variable {q : ℚ} (hnearest : IsNearest (num / den) q)

include hnearest

/--
The double is closer to the quotient than any tie can be that is not the quotient itself. Only where the exponent can
not become smaller there is no such bound, but there both are next to zero.
-/
theorem abs_sub_lt_of_small :
    |q - num / den| < 1 / (200 * den) ∨ (num / den : ℚ) < 1 / 400 ∧ |q| < 1 / 400 := by
  have hpos : (0 : ℚ) < den := by exact_mod_cast hden
  rcases hnearest.abs_sub_le hden (lt_limit_of_small hden hsmall) with herror | ⟨herror, htiny⟩
  . left
    apply herror.trans_lt
    have hnum : (200 * num : ℚ) < 2 ^ 53 := by exact_mod_cast hsmall
    rw [div_div]
    rw [div_lt_div_iff₀ (by positivity) (by positivity)]
    calc
      (num * (200 * den) : ℚ) = 200 * num * den := by ring
      _ < 2 ^ 53 * den := mul_lt_mul_of_pos_right hnum hpos
      _ = 1 * (den * 2 ^ 53) := by ring
  . right
    have hnonneg : (0 : ℚ) ≤ num / den := by positivity
    have hbound : (2 : ℚ) ^ (-10 : Int) = 1 / 1024 := by norm_num
    have hx := htiny.trans_le (two_zpow_le (by decide : (-1021 : Int) ≤ -10))
    have he := herror.trans (two_zpow_le (by decide : (-1075 : Int) ≤ -10))
    rw [hbound] at hx he
    rw [abs_le] at he
    refine ⟨by linarith, ?_⟩
    rw [abs_lt]
    constructor <;> linarith

theorem roundUp_of_not_isTie (htie : ¬IsTie (num / den)) : roundUp q = roundUp (num / den) := by
  have hpos : (0 : ℚ) < den := by exact_mod_cast hden
  rcases abs_sub_lt_of_small hden hsmall hnearest with herror | ⟨hx, hq⟩
  . rw [isTie_div_iff num hden] at htie
    -- the quotient is at least `1 / (2 * den)` away from where the hundredths change
    set whole := (200 * num + den) / (2 * den) with hwhole
    set rest := (200 * num + den) % (2 * den) with hrest
    have hsplit : (200 * num + den : ℚ) = 2 * den * whole + rest := by
      exact_mod_cast (Nat.div_add_mod (200 * num + den) (2 * den)).symm
    have hlow : (1 : ℚ) ≤ rest := by exact_mod_cast Nat.one_le_iff_ne_zero.mpr htie
    have hhigh : (rest + 1 : ℚ) ≤ 2 * den := by
      exact_mod_cast Nat.mod_lt (200 * num + den) (by omega : 0 < 2 * den)
    have hscaled : |200 * den * q - 200 * num| < 1 := by
      rw [lt_div_iff₀ (by positivity)] at herror
      calc
        |200 * den * q - 200 * num| = |(q - num / den) * (200 * den)| := by
          congr 1
          field_simp
        _ = |q - num / den| * (200 * den) := by
          rw [abs_mul]
          rw [abs_of_pos (by positivity : (0 : ℚ) < 200 * den)]
        _ < 1 := herror
    rw [abs_lt] at hscaled
    rw [roundUp_div num hden]
    rw [← hwhole]
    unfold roundUp
    have hge : (whole : ℚ) ≤ 100 * q + 1 / 2 := by
      have hmul : (2 * den * whole : ℚ) ≤ 2 * den * (100 * q + 1 / 2) := by linarith
      exact le_of_mul_le_mul_left hmul (by positivity)
    have hlt : 100 * q + 1 / 2 < (whole + 1 : ℚ) := by
      have hmul : 2 * den * (100 * q + 1 / 2) < (2 * den * (whole + 1) : ℚ) := by linarith
      exact lt_of_mul_lt_mul_left hmul (by positivity)
    rw [Nat.floor_eq_iff (le_trans (by positivity) hge)]
    exact ⟨hge, hlt⟩
  . unfold roundUp
    rw [abs_lt] at hq
    rw [Nat.floor_eq_zero.mpr (by linarith)]
    rw [Nat.floor_eq_zero.mpr (by linarith)]

theorem eq_of_isEighth (heighth : IsEighth (num / den)) : q = num / den := by
  have hpos : (0 : ℚ) < den := by exact_mod_cast hden
  obtain ⟨k, hk⟩ := heighth
  have hdouble : IsDouble (num / den) := by
    refine ⟨k, -3, ⟨?_, by decide, by decide⟩, ?_⟩
    . have hone : (1 : ℚ) ≤ den := by exact_mod_cast hden
      have hle : (num / den : ℚ) ≤ num := div_le_self (by positivity) hone
      have hnonneg : (0 : ℚ) ≤ num / den := by positivity
      rw [hk] at hle hnonneg
      have hle : k ≤ 8 * num := by
        have hle : (k : ℚ) ≤ 8 * num := by linarith
        exact_mod_cast hle
      have hnonneg : 0 ≤ k := by
        have hnonneg : (0 : ℚ) ≤ k := by linarith
        exact_mod_cast hnonneg
      rw [abs_of_nonneg hnonneg]
      omega
    . rw [hk]
      norm_num
      ring
  have hle := hnearest.le _ hdouble
  rw [sub_self] at hle
  rw [abs_zero] at hle
  exact sub_eq_zero.mp (abs_eq_zero.mp (le_antisymm hle (abs_nonneg _)))

theorem roundUp_adjacent :
    (roundUp q : ℤ) = ⌊(100 * (num / den) : ℚ)⌋ ∨ (roundUp q : ℤ) = ⌈(100 * (num / den) : ℚ)⌉ := by
  have hnonneg : (0 : ℚ) ≤ num / den := by positivity
  have hclose : |q - num / den| < 1 / 200 := by
    rcases abs_sub_lt_of_small hden hsmall hnearest with herror | ⟨hx, hq⟩
    . have hone : (1 : ℚ) ≤ den := by exact_mod_cast hden
      exact herror.trans_le (one_div_le_one_div_of_le (by norm_num) (by linarith))
    . rw [abs_lt] at hq ⊢
      constructor <;> linarith
  rw [abs_lt] at hclose
  have hle : (roundUp q : ℚ) ≤ 100 * q + 1 / 2 := Nat.floor_le (by linarith)
  have hlt : 100 * q + 1 / 2 < (roundUp q : ℚ) + 1 := Nat.lt_floor_add_one _
  rcases le_or_gt (roundUp q : ℚ) (100 * (num / den)) with hbelow | habove
  . left
    symm
    rw [Int.floor_eq_iff]
    push_cast
    constructor <;> linarith
  . right
    symm
    rw [Int.ceil_eq_iff]
    push_cast
    constructor <;> linarith

theorem roundUp_le : roundUp q ≤ 100 * num := by
  have hone : (1 : ℚ) ≤ den := by exact_mod_cast hden
  have hdiv : (num / den : ℚ) ≤ num := div_le_self (by positivity) hone
  have hceil : ⌈(100 * (num / den) : ℚ)⌉ ≤ 100 * num := by
    rw [Int.ceil_le]
    push_cast
    linarith
  have hfloor := Int.floor_le_ceil (100 * (num / den) : ℚ)
  rcases roundUp_adjacent hden hsmall hnearest with heq | heq <;> omega

omit hnearest in
theorem ofTotals_of_small :
    ∃ q, IsNearest (num / den) q ∧
      ofTotals num den = .ok (some { negative := false, hundredths := roundUp q }) := by
  have habs : |((num : ℤ) / (den : ℤ) : ℚ)| = num / den := abs_div_eq num den
  have hlt : |((num : ℤ) / (den : ℤ) : ℚ)| < limit := habs.trans_lt (lt_limit_of_small hden hsmall)
  obtain ⟨q, hnearest, htotals⟩ := ofTotals_of_lt (by omega) hlt
  rw [habs] at hnearest
  have hle := roundUp_le hden hsmall hnearest
  have hsign : isNegative num den = false := by
    unfold isNegative
    rw [decide_eq_false (by omega)]
    rw [decide_eq_false (by omega)]
    rfl
  refine ⟨q, hnearest, ?_⟩
  rw [htotals]
  rw [hsign]
  rw [if_pos (by omega)]

end Error

end Ratio

namespace Report

open Binary64

/--
The ratio that a report shows is the quotient of its totals to two decimals, halves up. Only a tie whose double is not
exact can go either way.
-/
theorem ratioText_rounds (r : Report) (hoop : 0 ≤ r.totals.oop) (hfp : 0 < r.totals.fp)
    (hsmall : 200 * r.totals.oop < 2 ^ 53) :
    ∃ (text : String) (hundredths : Nat),
      ratioText <$> r.ratio = .ok text ∧
      Ratio.Shows text false hundredths ∧
      (200 * r.totals.oop + r.totals.fp) / (2 * r.totals.fp) =
        ⌊(100 * (r.totals.oop / r.totals.fp) + 1 / 2 : ℚ)⌋ ∧
      (¬(Ratio.IsTie (r.totals.oop / r.totals.fp) ∧ ¬Ratio.IsEighth (r.totals.oop / r.totals.fp)) →
        (hundredths : ℤ) = (200 * r.totals.oop + r.totals.fp) / (2 * r.totals.fp)) ∧
      (Ratio.IsTie (r.totals.oop / r.totals.fp) ∧ ¬Ratio.IsEighth (r.totals.oop / r.totals.fp) →
        (hundredths : ℤ) = ⌊(100 * (r.totals.oop / r.totals.fp) : ℚ)⌋ ∨
        (hundredths : ℤ) = ⌈(100 * (r.totals.oop / r.totals.fp) : ℚ)⌉) := by
  unfold ratio
  generalize r.totals.oop = oop at *
  generalize r.totals.fp = fp at *
  lift oop to Nat using hoop with num
  lift fp to Nat using hfp.le with den
  simp only [Int.cast_natCast]
  have hden : 0 < den := by omega
  have hsmall : 200 * num < 2 ^ 53 := by omega
  have hround : ((200 * num + den) / (2 * den) : ℤ) = Ratio.roundUp (num / den) := by
    rw [Ratio.roundUp_div num hden]
    push_cast
    rfl
  obtain ⟨q, hnearest, htotals⟩ := Ratio.ofTotals_of_small hden hsmall
  rw [htotals]
  refine ⟨_, Ratio.roundUp q, rfl, Ratio.shows_display _, ?_, ?_, ?_⟩
  . rw [hround]
    exact Int.natCast_floor_eq_floor (by positivity)
  . intro hexact
    rw [hround]
    by_cases htie : Ratio.IsTie (num / den)
    . have heighth : Ratio.IsEighth (num / den) := by
        by_contra hnone
        exact hexact ⟨htie, hnone⟩
      rw [Ratio.eq_of_isEighth hden hsmall hnearest heighth]
    . rw [Ratio.roundUp_of_not_isTie hden hsmall hnearest htie]
  . intro _
    exact Ratio.roundUp_adjacent hden hsmall hnearest

theorem ratioText_rounds_eighth :
    ∃ r : Report, r.totals.oop = 1 ∧ r.totals.fp = 8 ∧
      ∃ (text : String) (hundredths : Nat),
        ratioText <$> r.ratio = .ok text ∧ Ratio.Shows text false hundredths ∧ hundredths = 13 := by
  refine ⟨{ directory := "d", files := 1, totals := { classes := 1, functions := 8 } }, rfl, rfl, ?_⟩
  obtain ⟨text, hundredths, htext, hshows, -, hexact, -⟩ :=
    ratioText_rounds { directory := "d", files := 1, totals := { classes := 1, functions := 8 } }
      (by decide) (by decide) (by decide)
  refine ⟨text, hundredths, htext, hshows, ?_⟩
  have heq := hexact fun h => h.2 ⟨1, by simp [Tally.oop, Tally.fp]⟩
  exact Int.natCast_inj.mp (heq.trans (by decide))

end Report

end ParadigmScan
