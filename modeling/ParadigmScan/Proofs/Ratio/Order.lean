import Mathlib.Algebra.Order.Field.Power
import ParadigmScan.Proofs.Ratio.Limits

/-!
This module contains that ratios are ordered as the quotients of the totals are, and that they depend on nothing but the
quotient and its sign. Each rounding on the way keeps the order: that to a double, that to hundredths and that back to a
double.
-/

namespace ParadigmScan

namespace Binary64

def value? : Binary64 → Option ℚ
  | .finite negative significand exponent => some (signed negative (significand * 2 ^ exponent))
  | _ => none

theorem IsNearest.mono {x y nearest nearest' : ℚ} (h : IsNearest x nearest) (h' : IsNearest y nearest')
    (hle : x ≤ y) : nearest ≤ nearest' := by
  by_contra hlt
  rw [not_le] at hlt
  -- both numbers lie between the two doubles, and neither is nearer to the other one's double
  have hx : nearest' < x := by
    by_contra hx
    exact absurd (h.le_of_le h'.isDouble (not_lt.mp hx)) hlt.not_ge
  have hy : y < nearest := by
    by_contra hy
    exact absurd (h'.ge_of_ge h.isDouble (not_lt.mp hy)) hlt.not_ge
  have hnear := h.le _ h'.isDouble
  rw [abs_of_pos (by linarith)] at hnear
  rw [abs_of_neg (by linarith)] at hnear
  have hnear' := h'.le _ h.isDouble
  rw [abs_of_neg (by linarith)] at hnear'
  rw [abs_of_pos (by linarith)] at hnear'
  have heq : x = y := by linarith
  subst heq
  exact hlt.ne (h'.unique h)

theorem signed_le_signed {n m : Bool} {a b a' b' : ℚ} (ha : 0 ≤ a) (hb : 0 ≤ b) (ha' : 0 ≤ a')
    (hb' : 0 ≤ b') (hmono : a ≤ b → a' ≤ b') (hanti : b ≤ a → b' ≤ a') (hzero : a = 0 → a' = 0)
    (hzero' : b = 0 → b' = 0) (hle : signed n a ≤ signed m b) : signed n a' ≤ signed m b' := by
  unfold signed at hle ⊢
  cases n with
  | false =>
    cases m with
    | false => simpa using hmono (by simpa using hle)
    | true =>
      simp only [Bool.false_eq_true, ↓reduceIte] at hle ⊢
      rw [hzero (by linarith)]
      rw [hzero' (by linarith)]
      simp
  | true =>
    cases m with
    | false =>
      simp only [Bool.false_eq_true, ↓reduceIte]
      linarith
    | true => simpa using hanti (by simpa using hle)

end Binary64

namespace Ratio

open Binary64

def value (r : Ratio) : ℚ := signed r.negative (r.hundredths / 100)

def Reads (text : String) (x : ℚ) : Prop :=
  ∃ negative hundredths, Shows text negative hundredths ∧ x = signed negative (hundredths / 100)

theorem reads_display (r : Ratio) : Reads r.display r.value :=
  ⟨r.negative, r.hundredths, shows_display r, rfl⟩

theorem roundUp_zero : roundUp 0 = 0 := by
  unfold roundUp
  rw [Nat.floor_eq_zero]
  norm_num

theorem roundUp_mono {x y : ℚ} (h : x ≤ y) : roundUp x ≤ roundUp y := by
  unfold roundUp
  apply Nat.floor_mono
  linarith

theorem ofTotals_eq_some {oop fp : Int} {ratio : Ratio} (h : ofTotals oop fp = .ok (some ratio)) :
    ratio.negative = isNegative oop fp ∧ ratio.hundredths < 10 ^ 28 ∧
      ∃ q, IsNearest |(oop / fp : ℚ)| q ∧ ratio.hundredths = roundUp q := by
  have hfp : fp ≠ 0 := by
    rintro rfl
    rw [ofTotals_zero] at h
    cases h
  rcases le_or_gt limit |(oop / fp : ℚ)| with hle | hlt
  . rw [ofTotals_of_le hfp hle] at h
    cases h
  . obtain ⟨q, hnearest, htotals⟩ := ofTotals_of_lt hfp hlt
    rw [h] at htotals
    split at htotals
    . next hdigits =>
      cases htotals
      exact ⟨rfl, hdigits, q, hnearest, rfl⟩
    . cases htotals

theorem exists_ofTotals_eq_some {oop fp : Int} (hfp : fp ≠ 0)
    (h : Report.failure (ofTotals oop fp) = none) : ∃ ratio, ofTotals oop fp = .ok (some ratio) := by
  obtain ⟨ratio, hratio⟩ := Report.failure_eq_none_iff.mp h
  cases ratio with
  | some ratio => exact ⟨ratio, hratio⟩
  | none =>
    unfold ofTotals at hratio
    simp only [beq_iff_eq, hfp, ↓reduceIte] at hratio
    cases hdouble : ofBinary64 (quotient oop fp) <;> rw [hdouble] at hratio <;> cases hratio

theorem value_le_value {oop fp oop' fp' : Int} {ratio ratio' : Ratio}
    (h : ofTotals oop fp = .ok (some ratio)) (h' : ofTotals oop' fp' = .ok (some ratio'))
    (hle : (oop / fp : ℚ) ≤ oop' / fp') : ratio.value ≤ ratio'.value := by
  obtain ⟨hsign, -, q, hnearest, hround⟩ := ofTotals_eq_some h
  obtain ⟨hsign', -, q', hnearest', hround'⟩ := ofTotals_eq_some h'
  have hmono : ∀ {x y : ℚ}, x ≤ y → (roundUp x / 100 : ℚ) ≤ roundUp y / 100 := by
    intro x y hxy
    have : (roundUp x : ℚ) ≤ roundUp y := by exact_mod_cast roundUp_mono hxy
    linarith
  have hzero : ∀ {x nearest : ℚ}, IsNearest x nearest → x = 0 → (roundUp nearest / 100 : ℚ) = 0 := by
    rintro x nearest hx rfl
    rw [hx.unique isNearest_zero]
    rw [roundUp_zero]
    simp
  unfold value
  rw [hsign]
  rw [hsign']
  rw [hround]
  rw [hround']
  apply signed_le_signed (abs_nonneg (oop / fp : ℚ)) (abs_nonneg (oop' / fp' : ℚ)) (by positivity)
    (by positivity)
  . exact fun hle => hmono (hnearest.mono hnearest' hle)
  . exact fun hle => hmono (hnearest'.mono hnearest hle)
  . exact hzero hnearest
  . exact hzero hnearest'
  . rw [abs_div_eq]
    rw [abs_div_eq]
    rw [← div_eq_signed]
    rw [← div_eq_signed]
    exact hle

theorem exists_toBinary64_eq {r : Ratio} (h : r.hundredths < 10 ^ 28) :
    ∃ significand exponent, r.toBinary64 = .finite r.negative significand exponent ∧
      IsNearest (r.hundredths / 100) (significand * 2 ^ exponent) := by
  have hlt : (r.hundredths / (100 : Nat) : ℚ) < limit := by
    have hbound : (r.hundredths : ℚ) ≤ 10 ^ 28 := by exact_mod_cast h.le
    calc
      (r.hundredths / (100 : Nat) : ℚ) ≤ 10 ^ 28 / (100 : Nat) := by gcongr
      _ ≤ 2 ^ (87 : Int) := by norm_num
      _ ≤ 2 ^ (1023 : Int) := two_zpow_le (by decide)
      _ < limit := lt_limit
  exact_mod_cast exists_ofQuotient_eq_finite r.negative (by decide) hlt

theorem toBinary64_le_toBinary64 {r s : Ratio} (hr : r.hundredths < 10 ^ 28)
    (hs : s.hundredths < 10 ^ 28) (hle : r.value ≤ s.value) :
    ∃ x y, r.toBinary64.value? = some x ∧ s.toBinary64.value? = some y ∧ x ≤ y := by
  obtain ⟨m, e, hfinite, hnearest⟩ := exists_toBinary64_eq hr
  obtain ⟨m', e', hfinite', hnearest'⟩ := exists_toBinary64_eq hs
  have hzero : ∀ {x nearest : ℚ}, IsNearest x nearest → x = 0 → nearest = 0 := by
    rintro x nearest hx rfl
    exact hx.unique isNearest_zero
  rw [hfinite]
  rw [hfinite']
  refine ⟨_, _, rfl, rfl, ?_⟩
  exact signed_le_signed (by positivity) (by positivity) (by positivity) (by positivity)
    (hnearest.mono hnearest') (hnearest'.mono hnearest) (hzero hnearest) (hzero hnearest') hle

theorem ofTotals_congr {oop fp oop' fp' : Int} (hfp : fp ≠ 0) (hfp' : fp' ≠ 0)
    (heq : (oop / fp : ℚ) = oop' / fp') (hsign : isNegative oop fp = isNegative oop' fp') :
    ofTotals oop fp = ofTotals oop' fp' := by
  rcases le_or_gt limit |(oop / fp : ℚ)| with hle | hlt
  . rw [ofTotals_of_le hfp hle]
    rw [ofTotals_of_le hfp' (heq ▸ hle)]
  . obtain ⟨q, hnearest, htotals⟩ := ofTotals_of_lt hfp hlt
    obtain ⟨q', hnearest', htotals'⟩ := ofTotals_of_lt hfp' (heq ▸ hlt)
    rw [heq] at hnearest
    rw [htotals]
    rw [htotals']
    rw [hnearest.unique hnearest']
    rw [hsign]

theorem ofTotals_mul {k : Int} (hk : 0 < k) (oop fp : Int) :
    ofTotals (k * oop) (k * fp) = ofTotals oop fp := by
  have hnegative : ∀ n : Int, k * n < 0 ↔ n < 0 := by
    intro n
    rw [mul_neg_iff]
    omega
  by_cases hfp : fp = 0
  . subst hfp
    rw [mul_zero]
    rw [ofTotals_zero]
    rw [ofTotals_zero]
  . apply ofTotals_congr (mul_ne_zero hk.ne' hfp) hfp
    . push_cast
      exact mul_div_mul_left _ _ (by exact_mod_cast hk.ne')
    . unfold isNegative
      simp only [hnegative]

end Ratio

namespace Report

open Binary64

def shownRatio (r : Report) : Except RatioError String := ratioText <$> r.ratio

def numericRatio (r : Report) : Except RatioError (Option Binary64) :=
  Option.map Ratio.toBinary64 <$> r.ratio

/--
The ratio respects the order of the quotients, both as it is shown and as a double. Totals that are multiples of others
have the same ratio, or fail in the same way.
-/
theorem ratio_respects_quotients (r s : Report) :
    (r.totals.fp ≠ 0 → s.totals.fp ≠ 0 → failure r.ratio = none → failure s.ratio = none →
      (r.totals.oop / r.totals.fp : ℚ) ≤ s.totals.oop / s.totals.fp →
      (∃ text text' x y, r.shownRatio = .ok text ∧ s.shownRatio = .ok text' ∧
        Ratio.Reads text x ∧ Ratio.Reads text' y ∧ x ≤ y) ∧
      ∃ double double' x y, r.numericRatio = .ok (some double) ∧ s.numericRatio = .ok (some double') ∧
        double.value? = some x ∧ double'.value? = some y ∧ x ≤ y) ∧
    ∀ k : Int, 0 < k → s.totals.oop = k * r.totals.oop → s.totals.fp = k * r.totals.fp →
      s.numericRatio = r.numericRatio ∧ s.shownRatio = r.shownRatio := by
  constructor
  . intro hfp hfp' hfailure hfailure' hle
    obtain ⟨ratio, hratio⟩ := Ratio.exists_ofTotals_eq_some hfp hfailure
    obtain ⟨ratio', hratio'⟩ := Ratio.exists_ofTotals_eq_some hfp' hfailure'
    have hvalue := Ratio.value_le_value hratio hratio' hle
    obtain ⟨-, hdigits, -⟩ := Ratio.ofTotals_eq_some hratio
    obtain ⟨-, hdigits', -⟩ := Ratio.ofTotals_eq_some hratio'
    obtain ⟨x, y, hx, hy, hxy⟩ := Ratio.toBinary64_le_toBinary64 hdigits hdigits' hvalue
    change r.ratio = .ok (some ratio) at hratio
    change s.ratio = .ok (some ratio') at hratio'
    unfold shownRatio numericRatio
    rw [hratio]
    rw [hratio']
    refine ⟨⟨_, _, _, _, rfl, rfl, ?_, ?_, hvalue⟩, _, _, x, y, rfl, rfl, hx, hy, hxy⟩
    . exact Ratio.reads_display ratio
    . exact Ratio.reads_display ratio'
  . intro k hk hoop hfp
    unfold shownRatio numericRatio ratio
    rw [hoop]
    rw [hfp]
    rw [Ratio.ofTotals_mul hk]
    exact ⟨rfl, rfl⟩

theorem ratio_respects_quotients_zero :
    ∃ r s : Report, r.totals.oop = -1 ∧ r.totals.fp = 300 ∧ s.totals.oop = 0 ∧ s.totals.fp = 1 ∧
      ∃ text text' x y, r.shownRatio = .ok text ∧ s.shownRatio = .ok text' ∧
        Ratio.Reads text x ∧ Ratio.Reads text' y ∧ x ≤ y := by
  refine ⟨{ directory := "d", files := 1, totals := { classes := -1, functions := 300 } },
    { directory := "d", files := 1, totals := { functions := 1 } }, rfl, rfl, rfl, rfl, ?_⟩
  refine ((ratio_respects_quotients _ _).1 ?_ ?_ ?_ ?_ ?_).1
  . decide
  . decide
  . rfl
  . exact failure_eq_none_iff.mpr (Ratio.ofTotals_of_countable (by decide) (by decide) (by decide))
  . norm_num [Tally.oop, Tally.fp]

end Report

end ParadigmScan
