import Mathlib.Algebra.Order.Field.Basic
import Mathlib.Data.Rat.Floor
import Mathlib.Tactic.FieldSimp
import Mathlib.Tactic.Linarith
import Mathlib.Tactic.NormNum
import Mathlib.Tactic.Positivity
import Mathlib.Tactic.Ring
import ParadigmScan.Number.Binary64

/-!
This module contains that quotients are rounded correctly: the double that stands for a quotient is the nearest one
there is, and of two that are equally near it is the one with the even significand. A quotient from half a unit beyond
the largest double on has none.
-/

namespace ParadigmScan

namespace Binary64

section Powers

theorem two_zpow_pos (e : Int) : (0 : ℚ) < 2 ^ e := zpow_pos two_pos e

theorem two_zpow_add (a b : Int) : (2 : ℚ) ^ (a + b) = 2 ^ a * 2 ^ b := zpow_add₀ two_ne_zero a b

theorem two_zpow_le {a b : Int} (h : a ≤ b) : (2 : ℚ) ^ a ≤ 2 ^ b := zpow_le_zpow_right₀ one_le_two h

theorem exists_mul_two_zpow_eq {e f : Int} (h : e ≤ f) :
    ∃ n : Nat, ∀ k : ℤ, (k : ℚ) * 2 ^ f = ((k * 2 ^ n : ℤ) : ℚ) * 2 ^ e := by
  obtain ⟨n, hn⟩ := Int.eq_ofNat_of_zero_le (sub_nonneg.mpr h)
  refine ⟨n, fun k => ?_⟩
  have : f = n + e := by omega
  rw [this]
  rw [two_zpow_add]
  rw [zpow_natCast]
  push_cast
  ring

theorem mul_two_zpow_lt_iff {k l : ℤ} (e : Int) : (k : ℚ) * 2 ^ e < l * 2 ^ e ↔ k < l := by
  rw [mul_lt_mul_iff_left₀ (two_zpow_pos e)]
  exact Int.cast_lt

theorem abs_mul_two_zpow_sub (k x : ℚ) (e : Int) : |k * 2 ^ e - x| = |k - x / 2 ^ e| * 2 ^ e := by
  have hpos := two_zpow_pos e
  rw [← abs_of_pos hpos]
  rw [← abs_mul]
  rw [abs_of_pos hpos]
  congr 1
  field_simp

end Powers

def signed (negative : Bool) (x : ℚ) : ℚ := if negative then -x else x

structure Fits (significand exponent : ℤ) : Prop where
  abs_lt : |significand| < 2 ^ 53
  ge : -1074 ≤ exponent
  le : exponent ≤ 971

/--
The number is the value of a double.
-/
def IsDouble (x : ℚ) : Prop :=
  ∃ k e : ℤ, Fits k e ∧ x = k * 2 ^ e

def IsEvenDouble (x : ℚ) : Prop :=
  ∃ k e : ℤ, Fits k e ∧ Even k ∧ x = k * 2 ^ e

/--
The number `nearest` is the double next to `x`. Of two that are equally near it is the one with the even significand.
-/
structure IsNearest (x nearest : ℚ) : Prop where
  isDouble : IsDouble nearest
  le : ∀ other, IsDouble other → |nearest - x| ≤ |other - x|
  even : ∀ other, IsDouble other → other ≠ nearest → |other - x| = |nearest - x| → IsEvenDouble nearest

section Signs

variable (negative : Bool) (x y : ℚ)

theorem signed_signed : signed negative (signed negative x) = x := by
  unfold signed
  split <;> simp

theorem abs_signed : |signed negative x| = |x| := by
  unfold signed
  split <;> simp

theorem abs_signed_sub_signed : |signed negative x - signed negative y| = |x - y| := by
  unfold signed
  split
  . rw [neg_sub_neg]
    exact abs_sub_comm y x
  . rfl

theorem Fits.neg {k e : ℤ} (h : Fits k e) : Fits (-k) e := by
  refine ⟨?_, h.ge, h.le⟩
  rw [abs_neg]
  exact h.abs_lt

theorem IsDouble.neg {x : ℚ} (h : IsDouble x) : IsDouble (-x) := by
  obtain ⟨k, e, hfits, rfl⟩ := h
  refine ⟨-k, e, hfits.neg, ?_⟩
  push_cast
  ring

theorem IsEvenDouble.neg {x : ℚ} (h : IsEvenDouble x) : IsEvenDouble (-x) := by
  obtain ⟨k, e, hfits, heven, rfl⟩ := h
  refine ⟨-k, e, hfits.neg, heven.neg, ?_⟩
  push_cast
  ring

variable {x}

theorem IsDouble.signed (h : IsDouble x) : IsDouble (signed negative x) := by
  unfold Binary64.signed
  split
  . exact h.neg
  . exact h

theorem IsEvenDouble.signed (h : IsEvenDouble x) : IsEvenDouble (signed negative x) := by
  unfold Binary64.signed
  split
  . exact h.neg
  . exact h

theorem IsNearest.signed {nearest : ℚ} (h : IsNearest x nearest) :
    IsNearest (signed negative x) (signed negative nearest) := by
  refine ⟨h.isDouble.signed negative, ?_, ?_⟩
  . intro other hother
    rw [← signed_signed negative other]
    rw [abs_signed_sub_signed]
    rw [abs_signed_sub_signed]
    exact h.le _ (hother.signed negative)
  . intro other hother hne heq
    rw [← signed_signed negative other] at hne heq
    rw [abs_signed_sub_signed] at heq
    rw [abs_signed_sub_signed] at heq
    apply IsEvenDouble.signed
    apply h.even _ (hother.signed negative) _ heq
    rintro hsame
    exact hne (congrArg (Binary64.signed negative) hsame)

end Signs

section Uniqueness

theorem exists_isDouble_between_of_le {a b e f : ℤ} (hfits : Fits a e) (ha : Even a) (hb : Even b)
    (hef : e ≤ f) (hlt : (a : ℚ) * 2 ^ e < b * 2 ^ f) :
    ∃ c, IsDouble c ∧ (a : ℚ) * 2 ^ e < c ∧ c < b * 2 ^ f := by
  obtain ⟨n, hn⟩ := exists_mul_two_zpow_eq hef
  have heven : Even (b * 2 ^ n) := hb.mul_right _
  have hbounds := abs_lt.mp hfits.abs_lt
  rw [hn] at hlt ⊢
  rw [mul_two_zpow_lt_iff] at hlt
  refine ⟨((a + 1 : ℤ) : ℚ) * 2 ^ e, ⟨a + 1, e, ⟨?_, hfits.ge, hfits.le⟩, rfl⟩, ?_, ?_⟩
  . rw [abs_lt]
    grind
  . rw [mul_two_zpow_lt_iff]
    omega
  . rw [mul_two_zpow_lt_iff]
    grind

theorem exists_isDouble_between {x y : ℚ} (hx : IsEvenDouble x) (hy : IsEvenDouble y) (hlt : x < y) :
    ∃ z, IsDouble z ∧ x < z ∧ z < y := by
  obtain ⟨a, e, hfits, ha, rfl⟩ := hx
  obtain ⟨b, f, hfits', hb, rfl⟩ := hy
  rcases le_total e f with hef | hfe
  . exact exists_isDouble_between_of_le hfits ha hb hef hlt
  . have hlt' : ((-b : ℤ) : ℚ) * 2 ^ f < ((-a : ℤ) : ℚ) * 2 ^ e := by
      push_cast
      linarith
    obtain ⟨c, hc, hlow, hhigh⟩ := exists_isDouble_between_of_le hfits'.neg hb.neg ha.neg hfe hlt'
    push_cast at hlow hhigh
    exact ⟨-c, hc.neg, by linarith, by linarith⟩

theorem IsNearest.unique {x nearest nearest' : ℚ} (h : IsNearest x nearest)
    (h' : IsNearest x nearest') : nearest = nearest' := by
  by_contra hne
  wlog hlt : nearest < nearest' generalizing nearest nearest'
  . exact this h' h (Ne.symm hne) (lt_of_le_of_ne (not_lt.mp hlt) (Ne.symm hne))
  have heq := (h.le _ h'.isDouble).antisymm (h'.le _ h.isDouble)
  have heven := h.even _ h'.isDouble (Ne.symm hne) heq.symm
  have heven' := h'.even _ h.isDouble hne heq
  obtain ⟨between, hbetween, hlow, hhigh⟩ := exists_isDouble_between heven heven' hlt
  -- the number is in the middle of the two, so that what lies between them is nearer
  have hmiddle : nearest' - x = x - nearest := by
    rcases abs_eq_abs.mp heq with hsame | hopposite
    . linarith
    . linarith
  have hnearer : |between - x| < |nearest - x| := by
    rw [abs_sub_comm nearest]
    rw [abs_of_pos (show 0 < x - nearest by linarith)]
    rw [abs_lt]
    constructor <;> linarith
  exact absurd (h.le _ hbetween) hnearer.not_ge

theorem IsNearest.le_of_le {x nearest other : ℚ} (h : IsNearest x nearest) (hother : IsDouble other)
    (hle : x ≤ other) : nearest ≤ other := by
  have habs := (le_abs_self (nearest - x)).trans (h.le other hother)
  rw [abs_of_nonneg (sub_nonneg.mpr hle)] at habs
  linarith

theorem IsNearest.ge_of_ge {x nearest other : ℚ} (h : IsNearest x nearest) (hother : IsDouble other)
    (hle : other ≤ x) : other ≤ nearest := by
  have habs := (neg_le_abs (nearest - x)).trans (h.le other hother)
  rw [abs_of_nonpos (sub_nonpos.mpr hle)] at habs
  linarith

end Uniqueness

section Integers

/--
An integer next to a number; if two are equally near, the even one.
-/
structure IsNearestInt (y : ℚ) (m : Nat) : Prop where
  le : |m - y| ≤ 1 / 2
  even : |m - y| = 1 / 2 → Even m

theorem isNearestInt_below {k : Nat} {t : ℚ} (hpos : 0 ≤ t) (hhalf : t ≤ 1 / 2)
    (heven : t = 1 / 2 → Even k) : IsNearestInt (k + t) k := by
  have habs : |k - (k + t)| = t := by
    rw [sub_add_cancel_left]
    rw [abs_neg]
    exact abs_of_nonneg hpos
  exact ⟨habs.trans_le hhalf, fun h => heven (habs.symm.trans h)⟩

theorem isNearestInt_above {k : Nat} {t : ℚ} (hhalf : 1 / 2 ≤ t) (hone : t ≤ 1)
    (heven : t = 1 / 2 → Even (k + 1)) : IsNearestInt (k + t) (k + 1) := by
  have habs : |((k + 1 : Nat) : ℚ) - (k + t)| = 1 - t := by
    push_cast
    rw [add_sub_add_left_eq_sub]
    apply abs_of_nonneg
    linarith
  refine ⟨?_, fun h => heven ?_⟩
  . linarith
  . linarith

theorem isNearestInt_divNearestEven (num : Nat) {den : Nat} (hden : 0 < den) :
    IsNearestInt (num / den) (divNearestEven num den) := by
  have hpos : (0 : ℚ) < den := by exact_mod_cast hden
  have hnum : (num : ℚ) / den = (num / den : Nat) + (num % den : Nat) / den := by
    have h : (num : ℚ) = den * (num / den : Nat) + (num % den : Nat) := by
      exact_mod_cast (Nat.div_add_mod num den).symm
    rw [h]
    field_simp
  have hhalf : ((num % den : Nat) : ℚ) / den = 1 / 2 → den = 2 * (num % den) := by
    intro h
    rw [div_eq_iff hpos.ne'] at h
    have : (den : ℚ) = 2 * (num % den : Nat) := by linarith
    exact_mod_cast this
  rw [hnum]
  unfold divNearestEven
  simp only [Bool.or_eq_true, Bool.and_eq_true, decide_eq_true_eq, beq_iff_eq]
  split
  . next hup =>
    have hle : den ≤ 2 * (num % den) := by omega
    apply isNearestInt_above
    . rw [le_div_iff₀ hpos]
      have : (den : ℚ) ≤ 2 * (num % den : Nat) := by exact_mod_cast hle
      linarith
    . rw [div_le_one hpos]
      exact_mod_cast (Nat.mod_lt num hden).le
    . intro h
      specialize hhalf h
      grind
  . next hup =>
    have hle : 2 * (num % den) ≤ den := by omega
    apply isNearestInt_below
    . positivity
    . rw [div_le_iff₀ hpos]
      have : 2 * ((num % den : Nat) : ℚ) ≤ den := by exact_mod_cast hle
      linarith
    . intro h
      specialize hhalf h
      grind

namespace IsNearestInt

variable {y : ℚ} {m : Nat} (h : IsNearestInt y m)

include h

theorem half_le {k : ℤ} (hne : k ≠ m) : 1 / 2 ≤ |k - y| := by
  have hone : (1 : ℚ) ≤ |(k : ℚ) - m| := by
    exact_mod_cast Int.one_le_abs (sub_ne_zero.mpr hne)
  have htriangle := abs_sub_le (k : ℚ) y m
  rw [abs_sub_comm y] at htriangle
  have := h.le
  linarith

theorem nearest (k : ℤ) : |m - y| ≤ |k - y| := by
  by_cases hne : k = m
  . simp [hne]
  . exact h.le.trans (h.half_le hne)

theorem even_of_abs_eq {k : ℤ} (hne : k ≠ m) (heq : |k - y| = |m - y|) : Even m := by
  apply h.even
  apply h.le.antisymm
  rw [← heq]
  exact h.half_le hne

theorem le_of_lt {k : Nat} (hlt : y < k) : m ≤ k := by
  have hle := (abs_le.mp h.le).2
  have : (m : ℚ) < k + 1 := by linarith
  have : m < k + 1 := by exact_mod_cast this
  omega

theorem le_of_le {k : Nat} (hle : (k : ℚ) ≤ y) : k ≤ m := by
  have hge := (abs_le.mp h.le).1
  have : (k : ℚ) < m + 1 := by linarith
  have : k < m + 1 := by exact_mod_cast this
  omega

theorem eq_iff {k : Nat} (hle : m ≤ k) (heven : Even k) : m = k ↔ (k : ℚ) - 1 / 2 ≤ y := by
  constructor
  . rintro rfl
    have := (abs_le.mp h.le).2
    linarith
  . intro hy
    by_contra hne
    have hlt : (m : ℚ) + 1 ≤ k := by exact_mod_cast lt_of_le_of_ne hle hne
    have hge := (abs_le.mp h.le).1
    have hm : (m : ℚ) + 1 = k := by linarith
    have habs : |m - y| = 1 / 2 := by
      rw [abs_of_nonpos] <;> linarith
    have hm : m + 1 = k := by exact_mod_cast hm
    have hodd := h.even habs
    grind

end IsNearestInt

end Integers

section Fractions

theorem scaleDown_div (num den : Nat) (e : Int) :
    ((scaleDown num den e).1 : ℚ) / (scaleDown num den e).2 = num / den / 2 ^ e := by
  unfold scaleDown
  split
  . next he =>
    obtain ⟨k, rfl⟩ := Int.eq_ofNat_of_zero_le he
    simp [div_div]
  . next he =>
    obtain ⟨k, hk⟩ := Int.eq_ofNat_of_zero_le (show 0 ≤ -e by omega)
    have : e = -(k : Int) := by omega
    subst this
    simp [mul_div_right_comm]

theorem fraction_div (significand : Nat) (exponent : Int) :
    ((fraction significand exponent).1 : ℚ) / (fraction significand exponent).2 =
      significand * 2 ^ exponent := by
  unfold fraction
  rw [scaleDown_div]
  simp

variable {num den : Nat} (hnum : 0 < num) (hden : 0 < den)

include hden in
theorem scaleDown_pos (num : Nat) (e : Int) : 0 < (scaleDown num den e).2 := by
  unfold scaleDown
  split
  . exact Nat.mul_pos hden (Nat.pow_pos (by decide))
  . exact hden

include hden in
theorem scaleDown_lt_iff (e : Int) :
    (scaleDown num den e).1 < (scaleDown num den e).2 ↔ (num / den : ℚ) < 2 ^ e := by
  have hpos : (0 : ℚ) < (scaleDown num den e).2 := by exact_mod_cast scaleDown_pos hden num e
  rw [← div_lt_one (two_zpow_pos e)]
  rw [← scaleDown_div]
  rw [div_lt_one hpos]
  exact Nat.cast_lt.symm

include hnum hden

theorem log2_sub_log2_spec :
    (2 : ℚ) ^ ((num.log2 : Int) - den.log2 - 1) < num / den ∧
      (num / den : ℚ) < 2 ^ ((num.log2 : Int) - den.log2 + 1) := by
  have hpos : (0 : ℚ) < den := by exact_mod_cast hden
  have hnumLow : (2 : ℚ) ^ (num.log2 : Int) ≤ num := by exact_mod_cast Nat.log2_self_le hnum.ne'
  have hnumHigh : (num : ℚ) < 2 ^ ((num.log2 : Int) + 1) := by exact_mod_cast Nat.lt_log2_self
  have hdenLow : (2 : ℚ) ^ (den.log2 : Int) ≤ den := by exact_mod_cast Nat.log2_self_le hden.ne'
  have hdenHigh : (den : ℚ) < 2 ^ ((den.log2 : Int) + 1) := by exact_mod_cast Nat.lt_log2_self
  constructor
  . rw [lt_div_iff₀ hpos]
    calc (2 : ℚ) ^ ((num.log2 : Int) - den.log2 - 1) * den
      _ < 2 ^ ((num.log2 : Int) - den.log2 - 1) * 2 ^ ((den.log2 : Int) + 1) :=
        mul_lt_mul_of_pos_left hdenHigh (two_zpow_pos _)
      _ = 2 ^ (num.log2 : Int) := by
        rw [← two_zpow_add]
        congr 1
        ring
      _ ≤ num := hnumLow
  . rw [div_lt_iff₀ hpos]
    calc (num : ℚ)
      _ < 2 ^ ((num.log2 : Int) + 1) := hnumHigh
      _ = 2 ^ ((num.log2 : Int) - den.log2 + 1) * 2 ^ (den.log2 : Int) := by
        rw [← two_zpow_add]
        congr 1
        ring
      _ ≤ 2 ^ ((num.log2 : Int) - den.log2 + 1) * den :=
        mul_le_mul_of_nonneg_left hdenLow (two_zpow_pos _).le

theorem leadingBit_spec :
    (2 : ℚ) ^ leadingBit num den ≤ num / den ∧ (num / den : ℚ) < 2 ^ (leadingBit num den + 1) := by
  obtain ⟨hlow, hhigh⟩ := log2_sub_log2_spec hnum hden
  unfold leadingBit
  simp only [scaleDown_lt_iff hden]
  split
  . next hlt =>
    rw [sub_add_cancel]
    exact ⟨hlow.le, hlt⟩
  . next hlt => exact ⟨not_lt.mp hlt, hhigh⟩

theorem lt_two_zpow_lastBit : (num / den : ℚ) < 2 ^ (lastBit num den + 53) := by
  apply (leadingBit_spec hnum hden).2.trans_le
  apply two_zpow_le
  unfold lastBit
  omega

theorem two_zpow_lastBit_le (h : lastBit num den ≠ -1074) :
    (2 : ℚ) ^ (lastBit num den + 52) ≤ num / den := by
  refine le_trans ?_ (leadingBit_spec hnum hden).1
  apply two_zpow_le
  unfold lastBit at h ⊢
  omega

end Fractions

theorem lastBit_ge (num den : Nat) : -1074 ≤ lastBit num den := by
  unfold lastBit
  omega

/--
Half a unit beyond the largest double. From here on quotients are too large.
-/
def limit : ℚ := 2 ^ 1024 - 2 ^ 970

theorem limit_eq : limit = (2 ^ 53 - 1 / 2) * 2 ^ (971 : Int) := by
  have hlarge : (2 : ℚ) ^ 1024 = 2 ^ 53 * 2 ^ 971 := by rw [← pow_add]
  have hhalf : (2 : ℚ) ^ 971 = 2 ^ 970 * 2 := by rw [← pow_succ]
  unfold limit
  rw [hlarge]
  rw [zpow_ofNat]
  rw [hhalf]
  generalize (2 : ℚ) ^ 970 = half
  ring

theorem limit_lt : limit < 2 ^ (1024 : Int) := by
  unfold limit
  rw [zpow_ofNat]
  exact sub_lt_self _ (by positivity)

theorem lt_limit : 2 ^ (1023 : Int) < limit := by
  have hsplit : (2 : ℚ) ^ (1023 : Int) = 2 ^ 52 * 2 ^ (971 : Int) := by
    rw [← zpow_natCast]
    rw [← two_zpow_add]
    rfl
  rw [limit_eq]
  rw [hsplit]
  apply mul_lt_mul_of_pos_right _ (two_zpow_pos _)
  norm_num

def rounded (num den : Nat) : Nat :=
  let (n, d) := scaleDown num den (lastBit num den)
  divNearestEven n d

theorem isNearestInt_rounded (num : Nat) {den : Nat} (hden : 0 < den) :
    IsNearestInt (num / den / 2 ^ lastBit num den) (rounded num den) := by
  rw [← scaleDown_div]
  exact isNearestInt_divNearestEven _ (scaleDown_pos hden num _)

theorem ofQuotient_eq (negative : Bool) (num den : Nat) :
    ofQuotient negative num den =
      if num = 0 then .finite negative 0 (-1074)
      else if rounded num den = 2 ^ 53 then
        if 970 < lastBit num den then .infinite negative
        else .finite negative (2 ^ 52) (lastBit num den + 1)
      else if 971 < lastBit num den then .infinite negative
      else .finite negative (rounded num den) (lastBit num den) := by
  have hcarry : 971 < lastBit num den + 1 ↔ 970 < lastBit num den := by omega
  simp only [ofQuotient, rounded, beq_iff_eq, Nat.pow_eq]
  by_cases hm : divNearestEven (scaleDown num den (lastBit num den)).1
      (scaleDown num den (lastBit num den)).2 = 2 ^ 53
  . simp only [hm, hcarry, ↓reduceIte]
  . simp only [hm, ↓reduceIte]

theorem IsDouble.on_grid {x : ℚ} (h : IsDouble x) (e : Int) :
    (∃ k : ℤ, x = k * 2 ^ e) ∨ -1074 < e ∧ x < 2 ^ (e + 52) := by
  obtain ⟨k, f, hfits, rfl⟩ := h
  rcases le_or_gt e f with hle | hlt
  . left
    obtain ⟨n, hn⟩ := exists_mul_two_zpow_eq hle
    exact ⟨_, hn k⟩
  . right
    have hge := hfits.ge
    have hk : (k : ℚ) < 2 ^ (53 : Int) := by exact_mod_cast (abs_lt.mp hfits.abs_lt).2
    refine ⟨by omega, ?_⟩
    calc (k : ℚ) * 2 ^ f
      _ < 2 ^ (53 : Int) * 2 ^ f := mul_lt_mul_of_pos_right hk (two_zpow_pos f)
      _ = 2 ^ (53 + f) := (two_zpow_add 53 f).symm
      _ ≤ 2 ^ (e + 52) := two_zpow_le (by omega)

section Quotient

variable {num den : Nat} (hnum : 0 < num) (hden : 0 < den)

include hnum hden

theorem rounded_le : rounded num den ≤ 2 ^ 53 := by
  apply (isNearestInt_rounded num hden).le_of_lt
  rw [div_lt_iff₀ (two_zpow_pos _)]
  apply (lt_two_zpow_lastBit hnum hden).trans_eq
  rw [two_zpow_add]
  push_cast
  ring

theorem abs_rounded_sub_lt (hlast : -1074 < lastBit num den) {other : ℚ}
    (hother : other < 2 ^ (lastBit num den + 52)) :
    |rounded num den * 2 ^ lastBit num den - (num / den : ℚ)| < |other - num / den| := by
  have hle := two_zpow_lastBit_le hnum hden hlast.ne'
  have hnearest := (isNearestInt_rounded num hden).nearest (2 ^ 52)
  have hbelow : |((2 ^ 52 : ℤ) : ℚ) * 2 ^ lastBit num den - (num / den : ℚ)| < |other - num / den| := by
    have hpower : ((2 ^ 52 : ℤ) : ℚ) * 2 ^ lastBit num den = 2 ^ (lastBit num den + 52) := by
      rw [two_zpow_add]
      push_cast
      ring
    rw [hpower]
    rw [abs_of_nonpos (by linarith)]
    rw [abs_of_nonpos (by linarith)]
    linarith
  refine lt_of_le_of_lt ?_ hbelow
  rw [abs_mul_two_zpow_sub]
  rw [abs_mul_two_zpow_sub]
  exact mul_le_mul_of_nonneg_right hnearest (two_zpow_pos _).le

theorem abs_rounded_sub_le {other : ℚ} (hother : IsDouble other) :
    |rounded num den * 2 ^ lastBit num den - (num / den : ℚ)| ≤ |other - num / den| := by
  rcases hother.on_grid (lastBit num den) with ⟨k, rfl⟩ | ⟨hlast, hlt⟩
  . rw [abs_mul_two_zpow_sub]
    rw [abs_mul_two_zpow_sub]
    apply mul_le_mul_of_nonneg_right _ (two_zpow_pos _).le
    exact (isNearestInt_rounded num hden).nearest k
  . exact (abs_rounded_sub_lt hnum hden hlast hlt).le

theorem even_rounded {other : ℚ} (hother : IsDouble other)
    (hne : other ≠ rounded num den * 2 ^ lastBit num den)
    (heq : |other - num / den| = |rounded num den * 2 ^ lastBit num den - (num / den : ℚ)|) :
    Even (rounded num den) := by
  rcases hother.on_grid (lastBit num den) with ⟨k, rfl⟩ | ⟨hlast, hlt⟩
  . rw [abs_mul_two_zpow_sub] at heq
    rw [abs_mul_two_zpow_sub] at heq
    have heq := mul_right_cancel₀ (two_zpow_pos _).ne' heq
    apply (isNearestInt_rounded num hden).even_of_abs_eq _ heq
    rintro rfl
    simp at hne
  . exact absurd heq (abs_rounded_sub_lt hnum hden hlast hlt).ne'

theorem rounded_eq_iff (h : lastBit num den = 971) :
    rounded num den = 2 ^ 53 ↔ limit ≤ num / den := by
  rw [(isNearestInt_rounded num hden).eq_iff (rounded_le hnum hden) (by decide)]
  rw [h]
  rw [le_div_iff₀ (two_zpow_pos _)]
  rw [limit_eq]
  norm_num

theorem ofQuotient_of_le (negative : Bool) (hle : limit ≤ num / den) :
    ofQuotient negative num den = .infinite negative := by
  have hlast : 971 ≤ lastBit num den := by
    by_contra hlast
    have hlt := lt_two_zpow_lastBit hnum hden
    have hmono : (2 : ℚ) ^ (lastBit num den + 53) ≤ 2 ^ (1023 : Int) := two_zpow_le (by omega)
    exact absurd hle ((hlt.trans_le hmono).trans lt_limit).not_ge
  rw [ofQuotient_eq]
  rw [if_neg hnum.ne']
  split
  . rw [if_pos (by omega)]
  . next hm =>
    have hne : lastBit num den ≠ 971 := by
      intro h
      exact hm ((rounded_eq_iff hnum hden h).mpr hle)
    rw [if_pos (by omega)]

theorem ofQuotient_of_lt (negative : Bool) (hlt : (num / den : ℚ) < limit) :
    ∃ (significand : Nat) (exponent : Int),
      ofQuotient negative num den = .finite negative significand exponent ∧
      Fits significand exponent ∧
      (significand : ℚ) * 2 ^ exponent = rounded num den * 2 ^ lastBit num den ∧
      (Even (rounded num den) → Even significand) := by
  have hge := lastBit_ge num den
  have hle : lastBit num den ≤ 971 := by
    by_contra hlast
    have hle := two_zpow_lastBit_le hnum hden (by omega)
    have hmono : (2 : ℚ) ^ (1024 : Int) ≤ 2 ^ (lastBit num den + 52) := two_zpow_le (by omega)
    exact absurd (hmono.trans hle) (hlt.trans limit_lt).not_ge
  rw [ofQuotient_eq]
  rw [if_neg hnum.ne']
  split
  . next hcarry =>
    have hne : lastBit num den ≠ 971 := by
      intro h
      exact absurd ((rounded_eq_iff hnum hden h).mp hcarry) hlt.not_ge
    rw [if_neg (by omega)]
    refine ⟨_, _, rfl, ⟨by norm_num, by omega, by omega⟩, ?_, fun _ => by decide⟩
    rw [hcarry]
    rw [two_zpow_add]
    push_cast
    ring
  . next hcarry =>
    have hm := rounded_le hnum hden
    have habs : |(rounded num den : ℤ)| < 2 ^ 53 := by
      rw [Nat.abs_cast]
      omega
    rw [if_neg (by omega)]
    exact ⟨_, _, rfl, ⟨habs, hge, hle⟩, rfl, id⟩

theorem isNearest_rounded (hlt : (num / den : ℚ) < limit) :
    IsNearest (num / den) (rounded num den * 2 ^ lastBit num den) := by
  obtain ⟨significand, exponent, -, hfits, hvalue, heven⟩ := ofQuotient_of_lt hnum hden false hlt
  refine ⟨⟨significand, exponent, hfits, ?_⟩, fun other => abs_rounded_sub_le hnum hden, ?_⟩
  . push_cast
    exact hvalue.symm
  . intro other hother hne heq
    refine ⟨significand, exponent, hfits, ?_, ?_⟩
    . exact_mod_cast heven (even_rounded hnum hden hother hne heq)
    . push_cast
      exact hvalue.symm

end Quotient

theorem isNearest_zero : IsNearest 0 0 := by
  refine ⟨⟨0, 0, ⟨by norm_num, by norm_num, by norm_num⟩, by simp⟩, ?_, ?_⟩
  . intro other _
    simp
  . intro other _ hne heq
    simp [hne] at heq

section Division

variable (negative : Bool) {num den : Nat} (hden : 0 < den)

include hden

theorem exists_ofQuotient_eq_finite (hlt : (num / den : ℚ) < limit) :
    ∃ significand exponent, ofQuotient negative num den = .finite negative significand exponent ∧
      IsNearest (num / den) (significand * 2 ^ exponent) := by
  rcases Nat.eq_zero_or_pos num with rfl | hnum
  . refine ⟨0, -1074, by rw [ofQuotient_eq]; simp, ?_⟩
    simpa using isNearest_zero
  . obtain ⟨significand, exponent, hfinite, -, hvalue, -⟩ := ofQuotient_of_lt hnum hden negative hlt
    refine ⟨significand, exponent, hfinite, ?_⟩
    rw [hvalue]
    exact isNearest_rounded hnum hden hlt

theorem ofQuotient_eq_infinite_iff :
    ofQuotient negative num den = .infinite negative ↔ limit ≤ num / den := by
  constructor
  . intro h
    by_contra hlt
    obtain ⟨_, _, hfinite, -⟩ := exists_ofQuotient_eq_finite negative hden (not_le.mp hlt)
    rw [h] at hfinite
    cases hfinite
  . intro hle
    have hpos : (0 : ℚ) < num / den := (two_zpow_pos _).trans (lt_limit.trans_le hle)
    have hnum : 0 < num := by
      rcases Nat.eq_zero_or_pos num with rfl | hnum
      . simp at hpos
      . exact hnum
    exact ofQuotient_of_le hnum hden negative hle

end Division

end Binary64

end ParadigmScan
