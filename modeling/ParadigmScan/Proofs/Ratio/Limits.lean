import ParadigmScan.Proofs.Ratio.Forms
import ParadigmScan.Proofs.Ratio.Hundredths

/-!
This module contains when two totals have no ratio. There are two limits, that of the doubles and that of the digits of
a decimal, and all written forms of a report fail at the same ones.
-/

namespace ParadigmScan

open Binary64

namespace Ratio

theorem ofTotals_zero (oop : Int) : ofTotals oop 0 = .ok none := rfl

theorem ofTotals_of_le {oop fp : Int} (hfp : fp ≠ 0) (hle : limit ≤ |(oop / fp : ℚ)|) :
    ofTotals oop fp = .error .tooLarge := by
  have hden : 0 < fp.natAbs := Int.natAbs_pos.mpr hfp
  rw [abs_div_eq] at hle
  have hinfinite := (ofQuotient_eq_infinite_iff (isNegative oop fp) hden).mpr hle
  unfold isNegative at hinfinite
  unfold ofTotals quotient
  rw [hinfinite]
  simp only [beq_iff_eq, hfp, ↓reduceIte]
  rfl

theorem roundUp_lt_iff {q : ℚ} (hdouble : IsDouble q) (hnonneg : 0 ≤ q) :
    roundUp q < 10 ^ 28 ↔ q < 10 ^ 26 := by
  unfold roundUp
  rw [Nat.floor_lt (by positivity)]
  push_cast
  constructor
  . intro hlt
    linarith
  . intro hlt
    rcases hdouble.on_grid 0 with ⟨k, hk⟩ | ⟨-, hsmall⟩
    . rw [zpow_zero] at hk
      rw [mul_one] at hk
      subst hk
      have hlt : k < 10 ^ 26 := by exact_mod_cast hlt
      have hle : (k : ℚ) ≤ 10 ^ 26 - 1 := by exact_mod_cast Int.le_sub_one_of_lt hlt
      linarith
    . norm_num at hsmall
      linarith

theorem ofTotals_of_nearest {oop fp : Int} (hfp : fp ≠ 0) (hlt : |(oop / fp : ℚ)| < limit) :
    ∃ q, IsNearest (oop / fp : ℚ) q ∧
      (10 ^ 26 ≤ |q| → ofTotals oop fp = .error .tooManyDigits) ∧
      (|q| < 10 ^ 26 → ∃ ratio, ofTotals oop fp = .ok (some ratio)) := by
  obtain ⟨q, hnearest, htotals⟩ := ofTotals_of_lt hfp hlt
  have hnonneg : 0 ≤ q := hnearest.ge_of_ge isNearest_zero.isDouble (abs_nonneg _)
  have hiff := roundUp_lt_iff hnearest.isDouble hnonneg
  refine ⟨signed (isNegative oop fp) q, ?_, ?_, ?_⟩
  . rw [div_eq_signed]
    rw [abs_div_eq] at hnearest
    exact hnearest.signed _
  . intro hle
    rw [abs_signed] at hle
    rw [abs_of_nonneg hnonneg] at hle
    rw [htotals]
    exact if_neg (mt hiff.mp hle.not_gt)
  . intro hlt
    rw [abs_signed] at hlt
    rw [abs_of_nonneg hnonneg] at hlt
    rw [htotals]
    exact ⟨_, if_pos (hiff.mpr hlt)⟩

/--
Below the limit by one, but the double next to it is beyond.
-/
example : ofTotals (10 ^ 26 - 1) 1 = .error .tooManyDigits := by
  rfl

theorem isDouble_two_pow {n : Nat} (hle : n ≤ 971) : IsDouble (2 ^ n) := by
  refine ⟨1, n, ⟨by decide, by omega, by omega⟩, ?_⟩
  simp

theorem ofTotals_of_countable {oop fp : Int} (hoop : 0 ≤ oop) (hle : oop ≤ 10 ^ 25) (hfp : 0 ≤ fp) :
    ∃ ratio, ofTotals oop fp = .ok ratio := by
  by_cases hzero : fp = 0
  . subst hzero
    exact ⟨none, ofTotals_zero oop⟩
  . have hone : (1 : ℚ) ≤ fp := by exact_mod_cast (by omega : 1 ≤ fp)
    have hoop : (0 : ℚ) ≤ oop := by exact_mod_cast hoop
    have hle : (oop : ℚ) ≤ 10 ^ 25 := by exact_mod_cast hle
    have hnonneg : (0 : ℚ) ≤ oop / fp := by positivity
    have hpower : (oop / fp : ℚ) ≤ 2 ^ 84 := by
      have hdiv := div_le_self hoop hone
      norm_num at hle ⊢
      linarith
    have hlt : |(oop / fp : ℚ)| < limit := by
      rw [abs_of_nonneg hnonneg]
      calc
        (oop / fp : ℚ) ≤ 2 ^ (84 : Int) := by exact_mod_cast hpower
        _ ≤ 2 ^ (1023 : Int) := two_zpow_le (by decide)
        _ < limit := lt_limit
    obtain ⟨q, hnearest, -, hshown⟩ := ofTotals_of_nearest hzero hlt
    have hlow := hnearest.ge_of_ge isNearest_zero.isDouble hnonneg
    have hhigh := hnearest.le_of_le (isDouble_two_pow (by decide)) hpower
    obtain ⟨ratio, hratio⟩ := hshown (by
      rw [abs_of_nonneg hlow]
      norm_num at hhigh ⊢
      linarith)
    exact ⟨some ratio, hratio⟩

end Ratio

namespace Report

/--
All forms of a report, the ratio as a number and as a text, the JSON object and the written ones, fail alike. They do so
where the quotient is beyond the doubles or the double next to it has too many digits, and nowhere else.
-/
theorem forms_fail_alike (r : Report) :
    (failure (Option.map Ratio.toBinary64 <$> r.ratio) = failure r.ratio ∧
      failure (ratioText <$> r.ratio) = failure r.ratio ∧
      failure r.toJson = failure r.ratio ∧
      ∀ format : Format, failure (format.write r) = failure r.ratio) ∧
    (r.totals.fp = 0 →
      r.ratio = .ok none ∧ ratioText <$> r.ratio = .ok "inf" ∧
      ∃ fields, r.toJson = .ok (.object fields) ∧ ("ratio", Json.null) ∈ fields) ∧
    (r.totals.fp ≠ 0 →
      (failure r.ratio = some .tooLarge ↔ limit ≤ |(r.totals.oop / r.totals.fp : ℚ)|) ∧
      (|(r.totals.oop / r.totals.fp : ℚ)| < limit →
        ∃ q, IsNearest (r.totals.oop / r.totals.fp) q ∧
          (∀ other, IsNearest (r.totals.oop / r.totals.fp) other → other = q) ∧
          (failure r.ratio = some .tooManyDigits ↔ 10 ^ 26 ≤ |q|) ∧
          (failure r.ratio = none ↔ |q| < 10 ^ 26))) ∧
    (0 ≤ r.totals.oop → r.totals.oop ≤ 10 ^ 25 → 0 ≤ r.totals.fp →
      ∀ format : Format, ∃ text, format.write r = .ok text) := by
  refine ⟨⟨?_, ?_, failure_toJson r, failure_write r⟩, ?_, ?_, ?_⟩
  . exact failure_map _ _
  . exact failure_map _ _
  . intro hzero
    have hnone : r.ratio = .ok none := by
      unfold ratio
      rw [hzero]
      exact Ratio.ofTotals_zero _
    refine ⟨hnone, ?_, ?_⟩
    . rw [hnone]
      rfl
    . unfold toJson
      rw [hnone]
      exact ⟨_, rfl, by simp⟩
  . intro hfp
    rcases le_or_gt limit |(r.totals.oop / r.totals.fp : ℚ)| with hle | hlt
    . have hlarge : r.ratio = .error .tooLarge := Ratio.ofTotals_of_le hfp hle
      rw [hlarge]
      exact ⟨iff_of_true rfl hle, fun hlt => absurd hle hlt.not_ge⟩
    . obtain ⟨q, hnearest, hdigits, hshown⟩ := Ratio.ofTotals_of_nearest hfp hlt
      rcases le_or_gt (10 ^ 26) |q| with hmany | hfew
      . have hratio : r.ratio = .error .tooManyDigits := hdigits hmany
        rw [hratio]
        refine ⟨iff_of_false (by simp [failure]) hlt.not_ge, fun _ => ⟨q, hnearest, ?_, ?_, ?_⟩⟩
        . exact fun other hother => hother.unique hnearest
        . exact iff_of_true rfl hmany
        . exact iff_of_false (by simp [failure]) hmany.not_gt
      . obtain ⟨ratio, hratio⟩ := hshown hfew
        have hratio : r.ratio = .ok (some ratio) := hratio
        rw [hratio]
        refine ⟨iff_of_false (by simp [failure]) hlt.not_ge, fun _ => ⟨q, hnearest, ?_, ?_, ?_⟩⟩
        . exact fun other hother => hother.unique hnearest
        . exact iff_of_false (by simp [failure]) hfew.not_ge
        . exact iff_of_true rfl hfew
  . intro hoop hle hfp format
    obtain ⟨ratio, hratio⟩ := Ratio.ofTotals_of_countable hoop hle hfp
    exact exists_write_of_ratio hratio format

end Report

end ParadigmScan
