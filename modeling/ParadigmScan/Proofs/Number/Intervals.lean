import ParadigmScan.Proofs.Number.Rounding

/-!
This module contains which numbers are rounded to a double: those between the middles to its two neighbours. The middles
belong to the double if its significand is even. At the first double with an exponent the neighbour below is nearer than
the one above.
-/

namespace ParadigmScan

namespace Binary64

def Within (closed : Bool) (low high y : ℚ) : Prop :=
  if closed then low ≤ y ∧ y ≤ high else low < y ∧ y < high

namespace Within

variable {closed : Bool} {low high y y' : ℚ}

theorem ge (h : Within closed low high y) : low ≤ y := by
  unfold Within at h
  split at h
  . exact h.1
  . exact h.1.le

theorem le (h : Within closed low high y) : y ≤ high := by
  unfold Within at h
  split at h
  . exact h.2
  . exact h.2.le

theorem of_lt (hlow : low < y) (hhigh : y < high) : Within closed low high y := by
  unfold Within
  split
  . exact ⟨hlow.le, hhigh.le⟩
  . exact ⟨hlow, hhigh⟩

theorem between (h : Within closed low high y) (h' : Within closed low high y') {x : ℚ} (hle : y ≤ x)
    (hle' : x ≤ y') : Within closed low high x := by
  unfold Within at h h' ⊢
  split at h
  . next hclosed =>
    rw [if_pos hclosed] at h' ⊢
    exact ⟨h.1.trans hle, hle'.trans h'.2⟩
  . next hclosed =>
    rw [if_neg hclosed] at h' ⊢
    exact ⟨h.1.trans_le hle, hle'.trans_lt h'.2⟩

theorem mul_iff {s : ℚ} (hs : 0 < s) :
    Within closed (low * s) (high * s) (y * s) ↔ Within closed low high y := by
  unfold Within
  simp only [mul_le_mul_iff_left₀ hs, mul_lt_mul_iff_left₀ hs]

end Within

/--
A positive double that has all of its bits, unless its exponent is the smallest one.
-/
structure IsNormal (significand : Nat) (exponent : Int) : Prop where
  pos : 0 < significand
  lt : significand < 2 ^ 53
  ge : -1074 ≤ exponent
  le : exponent ≤ 971
  full : 2 ^ 52 ≤ significand ∨ exponent = -1074

def isFirst (significand : Nat) (exponent : Int) : Bool :=
  significand == Nat.pow 2 52 && exponent != -1074

def lowQuarters (significand : Nat) (exponent : Int) : Nat :=
  4 * significand - if isFirst significand exponent then 1 else 2

def RoundsTo (significand : Nat) (exponent : Int) (y : ℚ) : Prop :=
  Within (significand % 2 == 0) (lowQuarters significand exponent * 2 ^ (exponent - 2))
    ((4 * significand + 2 : Nat) * 2 ^ (exponent - 2)) y

variable {m : Nat} {e : Int}

theorem isFirst_iff : isFirst m e = true ↔ m = 2 ^ 52 ∧ e ≠ -1074 := by
  simp [isFirst]

theorem two_zpow_of_eq_add_one {e f : Int} (h : e = f + 1) : (2 : ℚ) ^ e = 2 * 2 ^ f := by
  rw [h]
  rw [two_zpow_add]
  rw [zpow_one]
  rw [mul_comm]

theorem mul_two_zpow_eq (x : ℚ) (e : Int) : x * 2 ^ e = 4 * x * 2 ^ (e - 2) := by
  have hsplit : (2 : ℚ) ^ e = 2 ^ (e - 2) * 2 ^ (2 : Int) := by
    rw [← two_zpow_add]
    congr 1
    ring
  rw [hsplit]
  norm_num
  ring

namespace IsNormal

variable (h : IsNormal m e)

include h

theorem value_pos : (0 : ℚ) < m * 2 ^ e :=
  mul_pos (by exact_mod_cast h.pos) (two_zpow_pos e)

theorem fits : Fits m e := by
  refine ⟨?_, h.ge, h.le⟩
  rw [Nat.abs_cast]
  exact_mod_cast h.lt

theorem isDouble : IsDouble (m * 2 ^ e) := ⟨m, e, h.fits, by push_cast; rfl⟩

theorem two_pow_le (he : -1074 < e) : (2 : ℚ) ^ (e + 52) ≤ m * 2 ^ e := by
  have hm : (2 ^ 52 : ℚ) ≤ m := by exact_mod_cast h.full.resolve_right he.ne'
  rw [two_zpow_add]
  rw [mul_comm]
  exact mul_le_mul_of_nonneg_right (by exact_mod_cast hm) (two_zpow_pos e).le

theorem le_of_gt {other : ℚ} (hother : IsDouble other) (hlt : m * 2 ^ e < other) :
    (4 * m + 4) * 2 ^ (e - 2) ≤ other := by
  rcases hother.on_grid e with ⟨k, rfl⟩ | ⟨he, hsmall⟩
  . have hk : (m : ℤ) < k := (mul_two_zpow_lt_iff e).mp (by exact_mod_cast hlt)
    have hk : (m + 1 : ℚ) ≤ k := by exact_mod_cast hk
    calc
      (4 * m + 4) * 2 ^ (e - 2) = (m + 1 : ℚ) * 2 ^ e := by
        rw [mul_two_zpow_eq (m + 1)]
        ring
      _ ≤ k * 2 ^ e := mul_le_mul_of_nonneg_right hk (two_zpow_pos e).le
  . exact absurd (h.two_pow_le he) (hsmall.trans' hlt).not_ge

theorem ge_of_lt {other : ℚ} (hother : IsDouble other) (hlt : other < m * 2 ^ e) :
    other ≤ (2 * lowQuarters m e - 4 * m) * 2 ^ (e - 2) := by
  have hpos := h.pos
  have hquarter := two_zpow_pos (e - 2)
  by_cases hfirst : isFirst m e = true
  . have hlow : (lowQuarters m e : ℚ) = 4 * m - 1 := by
      unfold lowQuarters
      rw [if_pos hfirst]
      rw [Nat.cast_sub (by omega)]
      push_cast
      ring
    rw [isFirst_iff] at hfirst
    have hm : (m : ℚ) = 2 ^ 52 := by exact_mod_cast hfirst.1
    have hhalf : (2 : ℚ) ^ (e - 1) = 2 * 2 ^ (e - 2) := two_zpow_of_eq_add_one (by ring)
    rw [hlow]
    rw [mul_two_zpow_eq] at hlt
    rcases hother.on_grid (e - 1) with ⟨k, rfl⟩ | ⟨-, hsmall⟩
    . rw [hhalf] at hlt ⊢
      have hk : (k : ℚ) < 2 ^ 53 := by
        by_contra hk
        nlinarith
      have hk : (k : ℚ) ≤ 2 ^ 53 - 1 := by
        have hk : k < 2 ^ 53 := by exact_mod_cast hk
        exact_mod_cast Int.le_sub_one_of_lt hk
      nlinarith
    . rw [two_zpow_add] at hsmall
      rw [hhalf] at hsmall
      norm_num at hsmall hm
      nlinarith
  . have hlow : (lowQuarters m e : ℚ) = 4 * m - 2 := by
      unfold lowQuarters
      rw [if_neg hfirst]
      rw [Nat.cast_sub (by omega)]
      push_cast
      ring
    have hone : (2 * (4 * m - 2) - 4 * m : ℚ) * 2 ^ (e - 2) = (m - 1) * 2 ^ e := by
      rw [mul_two_zpow_eq (m - 1)]
      ring
    rw [hlow]
    rw [hone]
    rcases hother.on_grid e with ⟨k, rfl⟩ | ⟨he, hsmall⟩
    . have hk : k < (m : ℤ) := (mul_two_zpow_lt_iff e).mp (by exact_mod_cast hlt)
      have hk : (k : ℚ) ≤ m - 1 := by exact_mod_cast Int.le_sub_one_of_lt hk
      exact mul_le_mul_of_nonneg_right hk (two_zpow_pos e).le
    . rw [isFirst_iff] at hfirst
      have hm : 2 ^ 52 + 1 ≤ m := by
        have := h.full
        omega
      have hm : (2 ^ 52 : ℚ) ≤ m - 1 := by
        have hm : (2 ^ 52 + 1 : ℚ) ≤ m := by exact_mod_cast hm
        linarith
      rw [two_zpow_add] at hsmall
      rw [mul_comm] at hsmall
      exact hsmall.le.trans (mul_le_mul_of_nonneg_right (by exact_mod_cast hm) (two_zpow_pos e).le)

theorem lowQuarters_lt : lowQuarters m e < 4 * m := by
  have hpos := h.pos
  unfold lowQuarters
  split <;> omega

variable {y : ℚ}

theorem abs_sub_le (hrounds : RoundsTo m e y) {other : ℚ} (hother : IsDouble other)
    (hne : other ≠ m * 2 ^ e) :
    |m * 2 ^ e - y| ≤ |other - y| ∧ (m % 2 = 1 → |m * 2 ^ e - y| < |other - y|) := by
  have hle := hrounds.le
  have hge := hrounds.ge
  have hopen : m % 2 = 1 → lowQuarters m e * 2 ^ (e - 2) < y ∧ y < (4 * m + 2) * 2 ^ (e - 2) := by
    intro hodd
    unfold RoundsTo Within at hrounds
    rw [if_neg (by simp [hodd])] at hrounds
    exact_mod_cast hrounds
  push_cast at hle
  have hvalue := mul_two_zpow_eq m e
  set quarter : ℚ := 2 ^ (e - 2)
  rcases lt_or_gt_of_ne hne with hlt | hgt
  . have hother := h.ge_of_lt hother hlt
    have hlow : (lowQuarters m e : ℚ) * quarter < 4 * m * quarter := by
      apply mul_lt_mul_of_pos_right _ (two_zpow_pos _)
      exact_mod_cast h.lowQuarters_lt
    have hright : |other - y| = y - other := by
      rw [abs_of_nonpos] <;> linarith
    rw [hright]
    refine ⟨?_, fun hodd => ?_⟩
    . rw [abs_le]
      constructor <;> linarith
    . have hopen := hopen hodd
      rw [abs_lt]
      constructor <;> linarith
  . have hother := h.le_of_gt hother hgt
    have hquarter : 0 < quarter := two_zpow_pos _
    have hright : |other - y| = other - y := by
      rw [abs_of_nonneg]
      linarith
    rw [hright]
    refine ⟨?_, fun hodd => ?_⟩
    . rw [abs_le]
      constructor <;> linarith
    . have hopen := hopen hodd
      rw [abs_lt]
      constructor <;> linarith

theorem isNearest (hrounds : RoundsTo m e y) : IsNearest y (m * 2 ^ e) := by
  refine ⟨h.isDouble, ?_, ?_⟩
  . intro other hother
    by_cases hne : other = m * 2 ^ e
    . rw [hne]
    . exact (h.abs_sub_le hrounds hother hne).1
  . intro other hother hne heq
    have heven : m % 2 = 0 := by
      by_contra hodd
      exact ((h.abs_sub_le hrounds hother hne).2 (by omega)).ne heq.symm
    refine ⟨m, e, h.fits, ?_, by push_cast; rfl⟩
    exact_mod_cast Nat.even_iff.mpr heven

theorem lt_limit (hrounds : RoundsTo m e y) : y < limit := by
  have hquarter := two_zpow_pos (e - 2)
  have hscale : (2 ^ 53 - 1 / 2) * 2 ^ e ≤ limit := by
    rw [limit_eq]
    exact mul_le_mul_of_nonneg_left (two_zpow_le h.le) (by norm_num)
  rw [mul_two_zpow_eq] at hscale
  have hle := hrounds.le
  push_cast at hle
  by_cases heven : m % 2 = 0
  . have hm : (m + 2 : ℚ) ≤ 2 ^ 53 := by
      have := h.lt
      exact_mod_cast (by omega : m + 2 ≤ 2 ^ 53)
    nlinarith
  . have hm : (m + 1 : ℚ) ≤ 2 ^ 53 := by exact_mod_cast h.lt
    unfold RoundsTo Within at hrounds
    rw [if_neg (by simpa using heven)] at hrounds
    have hlt := hrounds.2
    push_cast at hlt
    nlinarith

end IsNormal

theorem IsNormal.unique {m' : Nat} {e' : Int} (h : IsNormal m e) (h' : IsNormal m' e')
    (heq : (m : ℚ) * 2 ^ e = m' * 2 ^ e') : m = m' ∧ e = e' := by
  wlog hle : e ≤ e' generalizing m m' e e'
  . obtain ⟨hm, he⟩ := this h' h heq.symm (by omega)
    exact ⟨hm.symm, he.symm⟩
  obtain ⟨n, hn⟩ := exists_mul_two_zpow_eq hle
  have hm : (m : ℤ) = m' * 2 ^ n := by
    have hn := hn m'
    rw [Int.cast_natCast] at hn
    rw [← heq] at hn
    have hcast : ((m : ℤ) : ℚ) = ((m' * 2 ^ n : ℤ) : ℚ) :=
      mul_right_cancel₀ (two_zpow_pos e).ne' (by exact_mod_cast hn)
    exact_mod_cast hcast
  have hm : m = m' * 2 ^ n := by exact_mod_cast hm
  have he : e = e' := by
    by_contra hne
    -- the significand for the larger exponent has all of its bits, so the other one has too many
    have hfull : 2 ^ 52 ≤ m' := h'.full.resolve_right (by have := h.ge; omega)
    have hn' : n ≠ 0 := by
      rintro rfl
      rw [pow_zero] at hm
      rw [mul_one] at hm
      subst hm
      have hm : (m : ℚ) ≠ 0 := by exact_mod_cast h.pos.ne'
      have hpower := mul_left_cancel₀ hm heq
      exact hne (zpow_right_injective₀ two_pos (by norm_num) hpower)
    have htwo : 2 ≤ 2 ^ n := Nat.le_self_pow hn' 2
    have hlt := h.lt
    nlinarith
  refine ⟨?_, he⟩
  subst he
  exact_mod_cast mul_right_cancel₀ (two_zpow_pos e).ne' heq

section Quotients

variable {negative : Bool} {num den : Nat} (hden : 0 < den)

include hden

theorem isNormal_of_ofQuotient (hnum : 0 < num) (hm : m ≠ 0)
    (h : ofQuotient negative num den = .finite negative m e) :
    IsNormal m e ∧ RoundsTo m e (num / den) := by
  have hnearest := isNearestInt_rounded num hden
  have hle := abs_le.mp hnearest.le
  have hge := lastBit_ge num den
  have hpos := two_zpow_pos (lastBit num den)
  rw [ofQuotient_eq] at h
  rw [if_neg hnum.ne'] at h
  split at h
  . next hcarry =>
    split at h
    . cases h
    . next hlast =>
      cases h
      refine ⟨⟨by decide, by decide, by omega, by omega, .inl le_rfl⟩, ?_⟩
      have hfirst : isFirst (2 ^ 52) (lastBit num den + 1) = true :=
        isFirst_iff.mpr ⟨rfl, by omega⟩
      have hhalf : (2 : ℚ) ^ lastBit num den = 2 * 2 ^ (lastBit num den + 1 - 2) :=
        two_zpow_of_eq_add_one (by ring)
      have hhigh := lt_two_zpow_lastBit hnum hden
      rw [two_zpow_add] at hhigh
      rw [hcarry] at hle
      have hlow : (2 ^ 53 - 1 / 2 : ℚ) * 2 ^ lastBit num den ≤ num / den := by
        rw [← le_div_iff₀ hpos]
        push_cast at hle
        linarith
      unfold RoundsTo lowQuarters Within
      rw [if_pos hfirst]
      rw [if_pos (by decide)]
      rw [hhalf] at hlow hhigh
      have hquarter := two_zpow_pos (lastBit num den + 1 - 2)
      constructor
      . norm_num at hlow ⊢
        linarith
      . norm_num at hhigh ⊢
        linarith
  . next hcarry =>
    split at h
    . cases h
    . next hlast =>
      cases h
      have hfull : 2 ^ 52 ≤ rounded num den ∨ lastBit num den = -1074 := by
        by_cases he : lastBit num den = -1074
        . exact .inr he
        . left
          apply hnearest.le_of_le
          rw [le_div_iff₀ hpos]
          have hle := two_zpow_lastBit_le hnum hden he
          rw [two_zpow_add] at hle
          rw [mul_comm]
          exact_mod_cast hle
      have hnormal : IsNormal (rounded num den) (lastBit num den) :=
        ⟨Nat.pos_of_ne_zero hm, lt_of_le_of_ne (rounded_le hnum hden) hcarry, hge, by omega, hfull⟩
      refine ⟨hnormal, ?_⟩
      have hscaled : (num / den : ℚ) = 4 * (num / den / 2 ^ lastBit num den) * 2 ^ (lastBit num den - 2) := by
        rw [← mul_two_zpow_eq]
        rw [div_mul_cancel₀ _ hpos.ne']
      rw [hscaled]
      unfold RoundsTo
      rw [Within.mul_iff (two_zpow_pos _)]
      by_cases hfirst : isFirst (rounded num den) (lastBit num den) = true
      . -- the quotient is not below the first double with the exponent
        have hm := isFirst_iff.mp hfirst
        have hlow : ((2 ^ 52 : Nat) : ℚ) ≤ num / den / 2 ^ lastBit num den := by
          rw [le_div_iff₀ hpos]
          have hle := two_zpow_lastBit_le hnum hden hm.2
          rw [two_zpow_add] at hle
          rw [mul_comm]
          exact_mod_cast hle
        unfold lowQuarters Within
        rw [if_pos hfirst]
        rw [hm.1] at hle ⊢
        rw [if_pos (by decide)]
        norm_num at hle hlow ⊢
        constructor <;> linarith
      . have hlow : (lowQuarters (rounded num den) (lastBit num den) : ℚ) = 4 * rounded num den - 2 := by
          have hpos := hnormal.pos
          unfold lowQuarters
          rw [if_neg hfirst]
          rw [Nat.cast_sub (by omega)]
          push_cast
          ring
        rw [hlow]
        by_cases heven : rounded num den % 2 = 0
        . unfold Within
          rw [if_pos (by simpa using heven)]
          push_cast
          constructor <;> linarith
        . -- an odd significand is nearer than half a unit
          have hodd : |(rounded num den : ℚ) - num / den / 2 ^ lastBit num den| < 1 / 2 := by
            apply lt_of_le_of_ne hnearest.le
            exact fun heq => heven (Nat.even_iff.mp (hnearest.even heq))
          rw [abs_lt] at hodd
          apply Within.of_lt <;> push_cast <;> linarith

theorem IsNormal.ofQuotient_eq (h : IsNormal m e) (hrounds : RoundsTo m e (num / den)) :
    ofQuotient negative num den = .finite negative m e := by
  obtain ⟨m', e', hfinite, hnearest⟩ :=
    exists_ofQuotient_eq_finite negative hden (h.lt_limit hrounds)
  have hvalue := (h.isNearest hrounds).unique hnearest
  have hpos := h.value_pos
  have hm : m' ≠ 0 := by
    rintro rfl
    rw [hvalue] at hpos
    simp at hpos
  have hnum : 0 < num := by
    rcases Nat.eq_zero_or_pos num with rfl | hnum
    . rw [Binary64.ofQuotient_eq] at hfinite
      simp only [↓reduceIte, finite.injEq, true_and] at hfinite
      exact absurd hfinite.1.symm hm
    . exact hnum
  obtain ⟨rfl, rfl⟩ := h.unique (isNormal_of_ofQuotient hden hnum hm hfinite).1 hvalue
  exact hfinite

end Quotients

end Binary64

end ParadigmScan
