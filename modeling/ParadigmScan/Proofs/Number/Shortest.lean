import Mathlib.Algebra.Order.Floor.Semifield
import ParadigmScan.Number.Shortest
import ParadigmScan.Proofs.Number.Intervals

/-!
This module contains that the shortest decimal of a double is what its name says: it is rounded to the double, and no
decimal with fewer digits is. Seventeen digits are always enough.
-/

namespace ParadigmScan

namespace Binary64

section Tens

theorem ten_zpow_pos (e : Int) : (0 : ℚ) < 10 ^ e := zpow_pos (by norm_num) e

theorem ten_zpow_add (a b : Int) : (10 : ℚ) ^ (a + b) = 10 ^ a * 10 ^ b := zpow_add₀ (by norm_num) a b

theorem ten_zpow_le_iff {a b : Int} : (10 : ℚ) ^ a ≤ 10 ^ b ↔ a ≤ b :=
  zpow_le_zpow_iff_right₀ (by norm_num)

theorem ten_zpow_lt_iff {a b : Int} : (10 : ℚ) ^ a < 10 ^ b ↔ a < b :=
  zpow_lt_zpow_iff_right₀ (by norm_num)

theorem ten_zpow_le_two_zpow {a b : Int} (hshort : 10 * a ≤ 3 * b) (hlong : 93 * a ≤ 28 * b) :
    (10 : ℚ) ^ a ≤ 2 ^ b := by
  rcases le_total 0 b with hb | hb
  . obtain ⟨n, rfl⟩ := Int.eq_ofNat_of_zero_le hb
    apply le_of_pow_le_pow_left₀ (n := 10) (by decide) (two_zpow_pos _).le
    calc
      ((10 : ℚ) ^ a) ^ 10 = 10 ^ (10 * a) := by
        rw [mul_comm]
        exact_mod_cast (zpow_mul (10 : ℚ) a 10).symm
      _ ≤ 10 ^ (3 * (n : Int)) := ten_zpow_le_iff.mpr hshort
      _ = (10 ^ 3) ^ n := by
        rw [zpow_mul]
        norm_num
      _ ≤ (2 ^ 10) ^ n := pow_le_pow_left₀ (by norm_num) (by norm_num) n
      _ = (2 ^ (n : Int)) ^ 10 := by
        rw [zpow_natCast]
        exact pow_right_comm 2 10 n
  . obtain ⟨n, hn⟩ := Int.eq_ofNat_of_zero_le (show 0 ≤ -b by omega)
    have hb : b = -(n : Int) := by omega
    subst hb
    apply le_of_pow_le_pow_left₀ (n := 93) (by decide) (two_zpow_pos _).le
    calc
      ((10 : ℚ) ^ a) ^ 93 = 10 ^ (93 * a) := by
        rw [mul_comm]
        exact_mod_cast (zpow_mul (10 : ℚ) a 93).symm
      _ ≤ 10 ^ (28 * -(n : Int)) := ten_zpow_le_iff.mpr hlong
      _ = ((10 ^ 28) ^ n)⁻¹ := by
        rw [mul_neg]
        rw [zpow_neg]
        rw [zpow_mul]
        norm_cast
      _ ≤ ((2 ^ 93) ^ n)⁻¹ := inv_anti₀ (by positivity) (pow_le_pow_left₀ (by norm_num) (by norm_num) n)
      _ = (2 ^ (-(n : Int))) ^ 93 := by
        rw [zpow_neg]
        rw [zpow_natCast]
        rw [inv_pow]
        rw [pow_right_comm]

theorem two_zpow_le_ten_zpow {a b : Int} (hshort : 3 * b ≤ 10 * a) (hlong : 28 * b ≤ 93 * a) :
    (2 : ℚ) ^ b ≤ 10 ^ a := by
  have hle : (10 : ℚ) ^ (-a) ≤ 2 ^ (-b) := ten_zpow_le_two_zpow (by omega) (by omega)
  rw [zpow_neg] at hle
  rw [zpow_neg] at hle
  exact (inv_le_inv₀ (ten_zpow_pos a) (two_zpow_pos b)).mp hle

end Tens

section Points

variable {num den : Nat} (hden : 0 < den)

include hden

theorem lt_ten_zpow_iff (k : Int) :
    (if 0 ≤ k then num < den * Nat.pow 10 k.toNat else num * Nat.pow 10 (-k).toNat < den) ↔
      (num / den : ℚ) < 10 ^ k := by
  have hpos : (0 : ℚ) < den := by exact_mod_cast hden
  rw [div_lt_iff₀ hpos]
  split
  . next hk =>
    obtain ⟨n, rfl⟩ := Int.eq_ofNat_of_zero_le hk
    rw [mul_comm]
    simp only [Nat.pow_eq, Int.toNat_natCast, zpow_natCast]
    exact_mod_cast Iff.rfl
  . next hk =>
    obtain ⟨n, hn⟩ := Int.eq_ofNat_of_zero_le (show 0 ≤ -k by omega)
    have hk : k = -(n : Int) := by omega
    subst hk
    rw [zpow_neg]
    rw [← div_eq_inv_mul]
    rw [lt_div_iff₀ (ten_zpow_pos _)]
    simp only [Nat.pow_eq, neg_neg, Int.toNat_natCast, zpow_natCast]
    exact_mod_cast Iff.rfl

theorem decimalPoint_spec {start : Int} {fuel : Nat} (hlow : (10 : ℚ) ^ (start - 1) ≤ num / den)
    (hhigh : (num / den : ℚ) < 10 ^ (start + fuel)) :
    (10 : ℚ) ^ (decimalPoint num den start fuel - 1) ≤ num / den ∧
      (num / den : ℚ) < 10 ^ decimalPoint num den start fuel := by
  induction fuel generalizing start with
  | zero =>
    rw [decimalPoint]
    exact ⟨hlow, by simpa using hhigh⟩
  | succ fuel ih =>
    rw [decimalPoint]
    simp only [lt_ten_zpow_iff hden]
    split
    . next hlt => exact ⟨hlow, hlt⟩
    . next hlt =>
      apply ih
      . rw [add_sub_cancel_right]
        exact not_lt.mp hlt
      . apply hhigh.trans_eq
        congr 1
        push_cast
        ring

end Points

def pointOf (significand : Nat) (exponent : Int) : Int :=
  decimalPoint (fraction significand exponent).1 (fraction significand exponent).2
    ((significand.log2 + exponent) * 30103 / 100000 - 1) 4

variable {m : Nat} {e : Int}

theorem IsNormal.pointOf_spec (h : IsNormal m e) :
    (10 : ℚ) ^ (pointOf m e - 1) ≤ m * 2 ^ e ∧ (m * 2 ^ e : ℚ) < 10 ^ pointOf m e := by
  have hlog : m.log2 < 53 := (Nat.log2_lt h.pos.ne').mpr h.lt
  have hlow : (2 : ℚ) ^ (m.log2 + e) ≤ m * 2 ^ e := by
    rw [two_zpow_add]
    apply mul_le_mul_of_nonneg_right _ (two_zpow_pos e).le
    exact_mod_cast Nat.log2_self_le h.pos.ne'
  have hhigh : (m * 2 ^ e : ℚ) < 2 ^ (m.log2 + e + 1) := by
    rw [add_right_comm]
    rw [two_zpow_add]
    apply mul_lt_mul_of_pos_right _ (two_zpow_pos e)
    exact_mod_cast Nat.lt_log2_self
  have hge := h.ge
  have hle := h.le
  rw [← fraction_div] at hlow hhigh ⊢
  apply decimalPoint_spec (scaleDown_pos one_pos m _)
  . refine le_trans ?_ hlow
    apply ten_zpow_le_two_zpow <;> omega
  . apply hhigh.trans_le
    apply two_zpow_le_ten_zpow <;> omega

section Candidates

variable {value low high unit : Nat} {closed : Bool}

theorem inside_iff (x : Nat) :
    (if closed then decide (low ≤ x * unit) && decide (x * unit ≤ high)
      else decide (low < x * unit) && decide (x * unit < high)) = true ↔
      Within closed low high (x * unit) := by
  unfold Within
  cases closed
  . simp only [Bool.false_eq_true, ↓reduceIte, Bool.and_eq_true, decide_eq_true_eq]
    exact_mod_cast Iff.rfl
  . simp only [↓reduceIte, Bool.and_eq_true, decide_eq_true_eq]
    exact_mod_cast Iff.rfl

theorem candidate?_cases :
    (∃ digits, candidate? value low high unit closed = some digits ∧
      Within closed low high (digits * unit) ∧ digits ≠ 0 ∧
      (digits = value / unit ∨ digits = value / unit + 1)) ∨
    candidate? value low high unit closed = none ∧
      (value / unit ≠ 0 → ¬Within closed low high ((value / unit : Nat) * unit)) ∧
      ¬Within closed low high ((value / unit + 1 : Nat) * unit) := by
  unfold candidate?
  simp only [← inside_iff]
  split
  . next hbelow habove =>
    simp only [Bool.and_eq_true, bne_iff_ne] at hbelow
    left
    split
    . exact ⟨_, rfl, habove, Nat.succ_ne_zero _, .inr rfl⟩
    . exact ⟨_, rfl, hbelow.1, hbelow.2, .inl rfl⟩
  . next hbelow habove =>
    simp only [Bool.and_eq_true, bne_iff_ne] at hbelow
    exact .inl ⟨_, rfl, hbelow.1, hbelow.2, .inl rfl⟩
  . next hbelow habove => exact .inl ⟨_, rfl, habove, Nat.succ_ne_zero _, .inr rfl⟩
  . next hbelow habove =>
    right
    refine ⟨rfl, ?_, by simp [habove]⟩
    intro hne hinside
    simp only [hinside, Bool.true_and, bne_eq_false_iff_eq] at hbelow
    exact hne hbelow

theorem not_within_of_candidate?_eq_none (h : candidate? value low high unit closed = none)
    (hunit : 0 < unit) (hvalue : Within closed low high value) {digits : Nat} (hdigits : digits ≠ 0) :
    ¬Within closed low high (digits * unit) := by
  intro hwithin
  rcases @candidate?_cases value low high unit closed with ⟨_, hsome, -⟩ | ⟨-, hbelow, habove⟩
  . rw [h] at hsome
    cases hsome
  rcases le_or_gt (digits * unit) value with hle | hlt
  . have hquotient : digits ≤ value / unit := (Nat.le_div_iff_mul_le hunit).mpr hle
    apply hbelow (by omega)
    apply hwithin.between hvalue
    . exact_mod_cast Nat.mul_le_mul_right unit hquotient
    . exact_mod_cast Nat.div_mul_le_self value unit
  . have hquotient : value / unit < digits := (Nat.div_lt_iff_lt_mul hunit).mpr hlt
    apply habove
    apply hvalue.between hwithin
    . exact_mod_cast ((Nat.div_lt_iff_lt_mul hunit).mp (Nat.lt_succ_self _)).le
    . exact_mod_cast Nat.mul_le_mul_right unit hquotient

end Candidates

section Digits

def powerNum (base : Nat) (k : Int) : Nat := if 0 ≤ k then Nat.pow base k.toNat else 1

def powerDen (base : Nat) (k : Int) : Nat := if 0 ≤ k then 1 else Nat.pow base (-k).toNat

theorem powerNum_div_powerDen {base : Nat} (hbase : 0 < base) (k : Int) :
    0 < powerDen base k ∧ (powerNum base k : ℚ) = base ^ k * powerDen base k := by
  unfold powerNum powerDen
  split
  . next hk =>
    obtain ⟨n, rfl⟩ := Int.eq_ofNat_of_zero_le hk
    exact ⟨one_pos, by simp⟩
  . next hk =>
    obtain ⟨n, hn⟩ := Int.eq_ofNat_of_zero_le (show 0 ≤ -k by omega)
    have hk : k = -(n : Int) := by omega
    subst hk
    have hpos : (0 : ℚ) < base ^ n := by positivity
    refine ⟨Nat.pow_pos hbase, ?_⟩
    simp [hpos.ne']

def digits? (significand : Nat) (exponent point : Int) (count : Nat) : Option Nat :=
  let times := powerDen 10 (point - count) * powerNum 2 (exponent - 2)
  candidate? (4 * significand * times) (lowQuarters significand exponent * times)
    ((4 * significand + 2) * times) (powerNum 10 (point - count) * powerDen 2 (exponent - 2))
    (significand % 2 == 0)

variable (point : Int) (count : Nat)

theorem scale_eq (exponent : Int) :
    ∃ s : ℚ, 0 < s ∧
      (∀ x : ℚ, x * (powerDen 10 (point - count) * powerNum 2 (exponent - 2)) = x * 2 ^ (exponent - 2) * s) ∧
      (powerNum 10 (point - count) * powerDen 2 (exponent - 2) : ℚ) = 10 ^ (point - count) * s := by
  obtain ⟨hten, htens⟩ := powerNum_div_powerDen (by decide : 0 < 10) (point - count)
  obtain ⟨htwo, htwos⟩ := powerNum_div_powerDen (by decide : 0 < 2) (exponent - 2)
  refine ⟨powerDen 10 (point - count) * powerDen 2 (exponent - 2), by positivity, ?_, ?_⟩
  . intro x
    rw [htwos]
    push_cast
    ring
  . rw [htens]
    push_cast
    ring

theorem powerNum_mul_powerDen_pos (exponent : Int) :
    0 < powerNum 10 (point - count) * powerDen 2 (exponent - 2) := by
  obtain ⟨s, hs, -, hunit⟩ := scale_eq point count exponent
  have hpos := mul_pos (ten_zpow_pos (point - count)) hs
  rw [← hunit] at hpos
  exact_mod_cast hpos

theorem within_iff (digits : Nat) :
    Within (m % 2 == 0) (lowQuarters m e * (powerDen 10 (point - count) * powerNum 2 (e - 2)) : Nat)
      ((4 * m + 2) * (powerDen 10 (point - count) * powerNum 2 (e - 2)) : Nat)
      (digits * (powerNum 10 (point - count) * powerDen 2 (e - 2) : Nat)) ↔
      RoundsTo m e (digits * 10 ^ (point - count)) := by
  obtain ⟨s, hs, hscale, hunit⟩ := scale_eq point count e
  refine Iff.trans (iff_of_eq ?_) (Within.mul_iff hs)
  push_cast
  rw [hscale]
  rw [hscale]
  rw [hunit]
  rw [mul_assoc (digits : ℚ)]

theorem div_eq_floor :
    4 * m * (powerDen 10 (point - count) * powerNum 2 (e - 2)) /
        (powerNum 10 (point - count) * powerDen 2 (e - 2)) =
      ⌊(m * 2 ^ e / 10 ^ (point - count) : ℚ)⌋₊ := by
  obtain ⟨s, hs, hscale, hunit⟩ := scale_eq point count e
  rw [← @Nat.floor_div_eq_div ℚ]
  congr 1
  push_cast
  rw [hscale]
  rw [hunit]
  rw [mul_div_mul_right _ _ hs.ne']
  rw [mul_two_zpow_eq m e]

variable {point count}

theorem digits?_eq_some {digits : Nat} (hdigits : digits? m e point count = some digits) :
    RoundsTo m e (digits * 10 ^ (point - count)) ∧ digits ≠ 0 ∧
      (digits = ⌊(m * 2 ^ e / 10 ^ (point - count) : ℚ)⌋₊ ∨
        digits = ⌊(m * 2 ^ e / 10 ^ (point - count) : ℚ)⌋₊ + 1) := by
  unfold digits? at hdigits
  rw [← within_iff]
  rw [← div_eq_floor]
  rcases candidate?_cases with ⟨_, hsome, hwithin, hne, hor⟩ | ⟨hnone, -⟩
  . rw [hdigits] at hsome
    cases hsome
    exact ⟨hwithin, hne, hor⟩
  . rw [hdigits] at hnone
    cases hnone

variable (h : IsNormal m e)

include h

theorem not_roundsTo_of_digits?_eq_none (hnone : digits? m e point count = none) {digits : Nat}
    (hdigits : digits ≠ 0) : ¬RoundsTo m e (digits * 10 ^ (point - count)) := by
  rw [← within_iff]
  apply not_within_of_candidate?_eq_none hnone (powerNum_mul_powerDen_pos point count e) _ hdigits
  -- the double itself lies inside
  obtain ⟨s, hs, hscale, -⟩ := scale_eq point count e
  have hpos : 0 < powerDen 10 (point - count) * powerNum 2 (e - 2) := by
    have hpos := mul_pos (two_zpow_pos (e - 2)) hs
    have hscale := hscale 1
    rw [one_mul] at hscale
    rw [one_mul] at hscale
    rw [← hscale] at hpos
    exact_mod_cast hpos
  apply Within.of_lt
  . exact_mod_cast Nat.mul_lt_mul_of_pos_right h.lowQuarters_lt hpos
  . exact_mod_cast Nat.mul_lt_mul_of_pos_right (by omega) hpos

theorem exists_roundsTo_seventeen (hpoint : (10 : ℚ) ^ (point - 1) ≤ m * 2 ^ e) :
    ∃ digits : Nat, digits ≠ 0 ∧ RoundsTo m e (digits * 10 ^ (point - (17 : Nat))) := by
  have hpos := ten_zpow_pos (point - (17 : Nat))
  have hquarter := two_zpow_pos (e - 2)
  have hunit : (10 : ℚ) ^ (point - (17 : Nat)) * 10 ^ 16 ≤ m * 2 ^ e := by
    refine le_trans (le_of_eq ?_) hpoint
    rw [show point - 1 = point - (17 : Nat) + 16 by push_cast; ring]
    rw [ten_zpow_add]
    norm_num
  have hvalue := mul_two_zpow_eq m e
  set unit : ℚ := 10 ^ (point - (17 : Nat))
  set quarter : ℚ := 2 ^ (e - 2)
  set below : Nat := ⌊(m * 2 ^ e / unit : ℚ)⌋₊
  have hbelow : (below : ℚ) * unit ≤ m * 2 ^ e := by
    rw [← le_div_iff₀ hpos]
    exact Nat.floor_le (div_nonneg h.value_pos.le hpos.le)
  have habove : (m * 2 ^ e : ℚ) < (below + 1) * unit := by
    rw [← div_lt_iff₀ hpos]
    exact Nat.lt_floor_add_one _
  have hm : (m : ℚ) < 2 ^ 53 := by exact_mod_cast h.lt
  have hone : (1 : ℚ) ≤ m := by exact_mod_cast h.pos
  have hlowQuarters : (lowQuarters m e : ℚ) < 4 * m := by exact_mod_cast h.lowQuarters_lt
  have hlow : (lowQuarters m e : ℚ) * quarter < 4 * m * quarter :=
    mul_lt_mul_of_pos_right hlowQuarters hquarter
  rcases lt_or_ge ((below + 1) * unit : ℚ) ((4 * m + 2) * quarter) with hlt | hge
  . refine ⟨below + 1, by omega, ?_⟩
    apply Within.of_lt
    . push_cast
      linarith
    . push_cast
      exact hlt
  . -- the multiple above is too far away, so that the one below is near enough
    have hfirst : ¬isFirst m e = true := by
      intro hfirst
      have hm : (m : ℚ) = 2 ^ 52 := by exact_mod_cast (isFirst_iff.mp hfirst).1
      rw [hvalue] at hunit hbelow
      rw [hm] at hunit hbelow hge
      norm_num at hunit hbelow hge
      linarith
    have hlow : (lowQuarters m e : ℚ) = 4 * m - 2 := by
      have := h.pos
      unfold lowQuarters
      rw [if_neg hfirst]
      rw [Nat.cast_sub (by omega)]
      push_cast
      ring
    have hsmall : unit < 4 * quarter := by
      have hbound : 4 * m * quarter < 4 * 2 ^ 53 * quarter := by gcongr
      rw [hvalue] at hunit
      norm_num at hunit hbound
      linarith
    have hnear : (4 * m - 2) * quarter < below * unit := by linarith
    refine ⟨below, ?_, ?_⟩
    . intro hzero
      rw [hzero] at hnear
      norm_num at hnear
      nlinarith
    . apply Within.of_lt
      . rw [hlow]
        exact hnear
      . push_cast
        linarith

end Digits

namespace Decimal

def value (d : Decimal) : ℚ := d.digits * 10 ^ (d.point - d.count)

structure IsFull (d : Decimal) : Prop where
  count_pos : 1 ≤ d.count
  le_digits : 10 ^ (d.count - 1) ≤ d.digits
  digits_lt : d.digits < 10 ^ d.count

/--
The decimal with given digits. A power of ten has one digit.
-/
def ofDigits (digits count : Nat) (point : Int) : Decimal :=
  if digits == Nat.pow 10 count then { digits := 1, count := 1, point := point + 1 }
  else { digits, count, point }

theorem ofDigits_cases (digits count : Nat) (point : Int) :
    digits = 10 ^ count ∧ ofDigits digits count point = { digits := 1, count := 1, point := point + 1 } ∨
      digits ≠ 10 ^ count ∧ ofDigits digits count point = { digits, count, point } := by
  unfold ofDigits
  by_cases hpower : digits = 10 ^ count
  . left
    simp [hpower]
  . right
    simp [hpower]

theorem value_ofDigits (digits count : Nat) (point : Int) :
    (ofDigits digits count point).value = digits * 10 ^ (point - count) := by
  rcases ofDigits_cases digits count point with ⟨hpower, heq⟩ | ⟨-, heq⟩
  . rw [heq]
    rw [hpower]
    unfold value
    push_cast
    rw [← zpow_natCast]
    rw [← ten_zpow_add]
    simp
  . rw [heq]
    rfl

end Decimal

structure IsShortest (significand : Nat) (exponent : Int) (d : Decimal) : Prop where
  roundsTo : RoundsTo significand exponent d.value
  full : d.IsFull
  count_le : d.count ≤ 17
  lt_point : (significand * 2 ^ exponent : ℚ) < 10 ^ d.point
  point_le : (10 : ℚ) ^ (d.point - 2) ≤ significand * 2 ^ exponent
  fewest : ∀ k, 1 ≤ k → k < d.count → ∀ digits : Nat, digits ≠ 0 →
    ¬RoundsTo significand exponent (digits * 10 ^ (d.point - k))

theorem go_succ (point : Int) (fuel count : Nat) :
    shortest.go (4 * m) (lowQuarters m e) (4 * m + 2) (e - 2) (m % 2 == 0) point (fuel + 1) count =
      (digits? m e point count).elim
        (shortest.go (4 * m) (lowQuarters m e) (4 * m + 2) (e - 2) (m % 2 == 0) point fuel (count + 1))
        fun digits => .ofDigits digits count point := by
  rw [shortest.go]
  change _ = Option.elim (candidate? _ _ _ _ _) _ _
  simp only [powerNum, powerDen]
  split
  . next hsome =>
    rw [hsome]
    rfl
  . next hnone =>
    rw [hnone]
    rfl

theorem go_spec {point : Int} {fuel count n : Nat} (hcount : count ≤ n) (hfuel : n < count + fuel)
    (hn : digits? m e point n ≠ none) :
    ∃ first digits, count ≤ first ∧ first ≤ n ∧ digits? m e point first = some digits ∧
      (∀ k, count ≤ k → k < first → digits? m e point k = none) ∧
      shortest.go (4 * m) (lowQuarters m e) (4 * m + 2) (e - 2) (m % 2 == 0) point fuel count =
        .ofDigits digits first point := by
  induction fuel generalizing count with
  | zero => omega
  | succ fuel ih =>
    rw [go_succ]
    cases hdigits : digits? m e point count with
    | some digits => exact ⟨count, digits, le_rfl, hcount, hdigits, by omega, rfl⟩
    | none =>
      have hne : count ≠ n := by
        rintro rfl
        exact hn hdigits
      obtain ⟨first, digits, hfirst, hle, hsome, hnone, hgo⟩ :=
        @ih (count + 1) (by omega) (by omega)
      refine ⟨first, digits, by omega, hle, hsome, ?_, hgo⟩
      intro k hk hlt
      rcases Nat.eq_or_lt_of_le hk with rfl | hk
      . exact hdigits
      . exact hnone k hk hlt

theorem IsNormal.digits_bounds (h : IsNormal m e) {point : Int} {count digits : Nat} (hcount : 1 ≤ count)
    (hlow : (10 : ℚ) ^ (point - 1) ≤ m * 2 ^ e) (hhigh : (m * 2 ^ e : ℚ) < 10 ^ point)
    (hdigits : digits = ⌊(m * 2 ^ e / 10 ^ (point - count) : ℚ)⌋₊ ∨
      digits = ⌊(m * 2 ^ e / 10 ^ (point - count) : ℚ)⌋₊ + 1) :
    10 ^ (count - 1) ≤ digits ∧ digits ≤ 10 ^ count := by
  have hpos := ten_zpow_pos (point - count)
  have hge : 10 ^ (count - 1) ≤ ⌊(m * 2 ^ e / 10 ^ (point - count) : ℚ)⌋₊ := by
    apply Nat.le_floor
    rw [le_div_iff₀ hpos]
    refine le_trans (le_of_eq ?_) hlow
    push_cast
    rw [← zpow_natCast]
    rw [← ten_zpow_add]
    congr 1
    omega
  have hlt : ⌊(m * 2 ^ e / 10 ^ (point - count) : ℚ)⌋₊ < 10 ^ count := by
    rw [Nat.floor_lt (div_nonneg h.value_pos.le hpos.le)]
    rw [div_lt_iff₀ hpos]
    apply hhigh.trans_eq
    push_cast
    rw [← zpow_natCast]
    rw [← ten_zpow_add]
    congr 1
    ring
  omega

theorem IsNormal.isShortest (h : IsNormal m e) : IsShortest m e (shortest m e) := by
  obtain ⟨hlow, hhigh⟩ := h.pointOf_spec
  obtain ⟨digits, hne, hseventeen⟩ := exists_roundsTo_seventeen h hlow
  have henough : digits? m e (pointOf m e) 17 ≠ none :=
    fun hnone => not_roundsTo_of_digits?_eq_none h hnone hne hseventeen
  obtain ⟨count, digits, hcount, hle, hsome, hnone, hgo⟩ :=
    go_spec (by decide : 1 ≤ 17) (by decide : 17 < 1 + 17) henough
  have hshortest : shortest m e = .ofDigits digits count (pointOf m e) := hgo
  obtain ⟨hrounds, -, hdigits⟩ := digits?_eq_some hsome
  obtain ⟨hge, hle'⟩ := h.digits_bounds hcount hlow hhigh hdigits
  rw [← Decimal.value_ofDigits] at hrounds
  rw [hshortest]
  rcases Decimal.ofDigits_cases digits count (pointOf m e) with ⟨-, heq⟩ | ⟨hpower, heq⟩
  . rw [heq] at hrounds ⊢
    refine ⟨hrounds, ⟨le_rfl, by simp, by simp⟩, by simp, ?_, ?_, ?_⟩
    . exact hhigh.trans (ten_zpow_lt_iff.mpr (by simp))
    . refine le_trans (le_of_eq ?_) hlow
      congr 1
      change pointOf m e + 1 - 2 = _
      ring
    . change ∀ k, 1 ≤ k → k < 1 → _
      omega
  . rw [heq] at hrounds ⊢
    refine ⟨hrounds, ⟨hcount, hge, lt_of_le_of_ne hle' hpower⟩, hle, hhigh, ?_, ?_⟩
    . have hpoint : pointOf m e - 2 ≤ pointOf m e - 1 := by omega
      exact (ten_zpow_le_iff.mpr hpoint).trans hlow
    . intro k hk hlt digits hdigits
      exact not_roundsTo_of_digits?_eq_none h (hnone k hk hlt) hdigits

end Binary64

end ParadigmScan
