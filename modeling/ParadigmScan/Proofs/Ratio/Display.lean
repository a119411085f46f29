import Mathlib.Data.List.DropRight
import ParadigmScan.Proofs.Number.Numerals
import ParadigmScan.Proofs.Ratio.Order

/-!
This module contains that a report shows the same ratio in all of its forms. The decimals with two digits after the
point and the doubles next to them stand for each other as long as there are fifteen digits at most.
-/

namespace ParadigmScan

namespace Binary64

theorem RoundsTo.sub_le {m : Nat} {e : Int} {y y' : ℚ} (h : RoundsTo m e y) (h' : RoundsTo m e y') :
    y - y' ≤ 2 ^ e := by
  have hlow : (4 * m - 2 : ℚ) ≤ lowQuarters m e := by
    have hlow : 4 * m ≤ lowQuarters m e + 2 := by
      unfold lowQuarters
      split <;> omega
    have hlow : (4 * m : ℚ) ≤ lowQuarters m e + 2 := by exact_mod_cast hlow
    linarith
  have hhigh := h.le
  have hge := (mul_le_mul_of_nonneg_right hlow (two_zpow_pos (e - 2)).le).trans h'.ge
  have hunit := mul_two_zpow_eq 1 e
  push_cast at hhigh
  linarith

theorem IsNearest.hundredth_le {n : Nat} {nearest : ℚ} (h : IsNearest (n / 100) nearest) (hpos : 0 < n) :
    (10 : ℚ) ^ (-2 : Int) ≤ nearest := by
  -- the double of a hundredth is above it
  have hunit : ofQuotient false 1 100 = .finite false 5764607523034235 (-59) := by decide
  obtain ⟨hnormal, hhundredth⟩ := isNormal_of_ofQuotient (by decide) (by decide) (by decide) hunit
  have hle : ((1 : Nat) / (100 : Nat) : ℚ) ≤ n / 100 := by
    have hone : (1 : ℚ) ≤ n := by exact_mod_cast hpos
    push_cast
    linarith
  refine le_trans ?_ ((hnormal.isNearest hhundredth).mono h hle)
  norm_num

section Cents

variable {m n : Nat} {e : Int} (h : IsNormal m e) (hrounds : RoundsTo m e (n / 100))

include h hrounds

variable (hlt : n < 10 ^ 15)

include hlt

theorem le_ten_zpow : (m * 2 ^ e : ℚ) ≤ 10 ^ (13 : Int) := by
  have hdouble : IsDouble (10 ^ (13 : Int)) := by
    refine ⟨10 ^ 13, 0, ⟨by decide, by decide, by decide⟩, ?_⟩
    norm_num
  apply (h.isNearest hrounds).le_of_le hdouble
  have hle : (n : ℚ) ≤ 10 ^ 15 := by exact_mod_cast hlt.le
  calc
    (n / 100 : ℚ) ≤ 10 ^ 15 / 100 := by gcongr
    _ = 10 ^ (13 : Int) := by norm_num

theorem two_zpow_lt_hundredth : (2 : ℚ) ^ e < 1 / 100 := by
  rcases h.ge.eq_or_lt with rfl | he
  . calc
      (2 : ℚ) ^ (-1074 : Int) ≤ 2 ^ (-7 : Int) := two_zpow_le (by decide)
      _ < 1 / 100 := by norm_num
  . have hle := (h.two_pow_le he).trans (le_ten_zpow h hrounds hlt)
    rw [two_zpow_add] at hle
    norm_num at hle ⊢
    linarith

variable (hpos : 0 < n)

include hpos

theorem shortest_hundredths :
    ∃ trailing : Nat, (shortest m e).point = (shortest m e).count + trailing - 2 ∧
      n = (shortest m e).digits * 10 ^ trailing := by
  have hs := h.isShortest
  set d := shortest m e
  have hlow : -2 < d.point := ten_zpow_lt_iff.mp (((h.isNearest hrounds).hundredth_le hpos).trans_lt hs.lt_point)
  -- otherwise the hundredths are a number with fewer digits
  have hcount : d.count ≤ d.point + 2 := by
    by_contra hmany
    apply hs.fewest (d.point + 2).toNat (by omega) (by omega) n hpos.ne'
    rw [Int.toNat_of_nonneg (by omega)]
    rw [sub_add_cancel_left]
    rw [zpow_neg]
    rw [← div_eq_mul_inv]
    norm_num
    exact hrounds
  obtain ⟨trailing, htrailing⟩ := Int.eq_ofNat_of_zero_le (by omega : 0 ≤ d.point + 2 - d.count)
  refine ⟨trailing, by omega, ?_⟩
  have hvalue : d.value = (d.digits * 10 ^ trailing : Nat) / 100 := by
    unfold Decimal.value
    rw [show d.point - d.count = trailing + -2 by omega]
    rw [ten_zpow_add]
    rw [zpow_natCast]
    push_cast
    norm_num
    ring
  have hunit := two_zpow_lt_hundredth h hrounds hlt
  have hbelow := hrounds.sub_le (hvalue ▸ hs.roundsTo)
  have habove := RoundsTo.sub_le (hvalue ▸ hs.roundsTo) hrounds
  generalize d.digits * 10 ^ trailing = n' at *
  have hbelow : (n : ℚ) < n' + 1 := by linarith
  have habove : (n' : ℚ) < n + 1 := by linarith
  have hbelow : n < n' + 1 := by exact_mod_cast hbelow
  have habove : n' < n + 1 := by exact_mod_cast habove
  omega

end Cents

theorem IsShortest.not_dvd {m : Nat} {e : Int} {d : Decimal} (h : IsShortest m e d) : ¬10 ∣ d.digits := by
  rintro ⟨digits, hdigits⟩
  have hpos : digits ≠ 0 := by
    rintro rfl
    have := h.full.digits_pos
    omega
  have hcount : 2 ≤ d.count := by
    by_contra hone
    have hcount : d.count = 1 := by
      have := h.full.count_pos
      omega
    have := h.full.digits_lt
    rw [hcount] at this
    omega
  apply h.fewest (d.count - 1) (by omega) (by omega) digits hpos
  have hvalue : d.value = digits * 10 ^ (d.point - (d.count - 1 : Nat)) := by
    unfold Decimal.value
    rw [hdigits]
    rw [show d.point - (d.count - 1 : Nat) = d.point - d.count + 1 by omega]
    rw [ten_zpow_add]
    push_cast
    ring
  rw [← hvalue]
  exact h.roundsTo

namespace Decimal

/--
The digits of a number of hundredths, with a point in front of the last two. Zeros at the end are left out, but one
digit after the point stays.
-/
def hundredthsChars (n : Nat) : List Char :=
  Nat.toDigits 10 (n / 100) ++ '.' :: if n % 10 = 0 then lastDigits 1 (n / 10) else lastDigits 2 n

theorem IsFull.toList_text_of_hundredths {d : Decimal} (h : d.IsFull) (hten : ¬10 ∣ d.digits)
    (hhigh : d.point ≤ 16) {trailing : Nat} (hpoint : d.point = d.count + trailing - 2) :
    d.text.toList = hundredthsChars (d.digits * 10 ^ trailing) := by
  have hcount := h.count_pos
  unfold hundredthsChars
  rcases trailing with - | - | trailing
  . rw [pow_zero]
    rw [mul_one]
    rw [if_neg (by omega)]
    exact h.toList_text_of_eq_sub 2 (by decide) (by omega) (by omega) hhigh
  . rw [zero_add]
    rw [pow_one]
    rw [if_pos (Nat.mul_mod_left _ _)]
    rw [Nat.mul_div_cancel _ (by decide)]
    rw [show d.digits * 10 / 100 = d.digits / 10 ^ 1 by omega]
    exact h.toList_text_of_eq_sub 1 (by decide) (by omega) (by omega) hhigh
  . rw [h.toList_text_of_le (by omega) hhigh]
    rw [show d.digits * 10 ^ (trailing + 1 + 1) = d.digits * 10 ^ trailing * 100 by ring]
    rw [Nat.mul_div_cancel _ (by decide)]
    rw [toDigits_mul_ten_pow h.digits_pos]
    rw [show (d.point - d.count).toNat = trailing by omega]
    rw [if_pos (by omega)]
    rw [show d.digits * 10 ^ trailing * 100 / 10 = d.digits * 10 ^ trailing * 10 by omega]
    simp [chars, lastDigits]

end Decimal

end Binary64

namespace Ratio

open Binary64

theorem exists_isNormal {r : Ratio} (h : r.hundredths < 10 ^ 28) (hpos : 0 < r.hundredths) :
    ∃ significand exponent, r.toBinary64 = .finite r.negative significand exponent ∧
      IsNormal significand exponent ∧ RoundsTo significand exponent (r.hundredths / 100) := by
  obtain ⟨m, e, hfinite, hnearest⟩ := exists_toBinary64_eq h
  have hm : m ≠ 0 := by
    rintro rfl
    have hle := hnearest.hundredth_le hpos
    norm_num at hle
  exact ⟨m, e, hfinite, isNormal_of_ofQuotient (by decide) hpos hm hfinite⟩

theorem isCanonical_toBinary64 {r : Ratio} (h : r.hundredths < 10 ^ 28) : r.toBinary64.IsCanonical := by
  rcases Nat.eq_zero_or_pos r.hundredths with hzero | hpos
  . unfold toBinary64
    rw [hzero]
    exact .inr ⟨rfl, rfl⟩
  . obtain ⟨m, e, hfinite, hnormal, -⟩ := exists_isNormal h hpos
    rw [hfinite]
    exact .inl hnormal

theorem notMem_text_toBinary64 {c : Char} (hc : ¬(c.isDigit = true ∨ c ∈ ['.', 'e', 'E', '+', '-']))
    {r : Ratio} (h : r.hundredths < 10 ^ 28) : c ∉ r.toBinary64.text.toList := by
  obtain ⟨n, hn, -, htext, -⟩ := (isCanonical_toBinary64 h).exists_numeral
  rw [← htext]
  exact mt hn.mem_text hc

/--
A text without the zeros at its end. If a point would be the last character then, one zero stays.
-/
def trimmed (text : String) : String :=
  let kept := text.toList.rdropWhile (· == '0')
  String.ofList (if kept.getLast? = some '.' then kept ++ ['0'] else kept)

def significantDigits (text : String) : Nat :=
  ((text.toList.filter Char.isDigit).dropWhile (· == '0')).length

theorem ofDigitChars_dropWhile (digits : List Char) :
    Nat.ofDigitChars 10 (digits.dropWhile (· == '0')) 0 = Nat.ofDigitChars 10 digits 0 := by
  induction digits with
  | nil => rfl
  | cons c digits ih =>
    rw [List.dropWhile_cons]
    split
    . next hzero =>
      rw [ih]
      rw [Nat.ofDigitChars_cons]
      rw [eq_of_beq hzero]
      rfl
    . rfl

theorem ofDigitChars_lt {digits : List Char} (h : ∀ c ∈ digits, c.isDigit = true) :
    Nat.ofDigitChars 10 digits 0 < 10 ^ digits.length := by
  induction digits with
  | nil => decide
  | cons c digits ih =>
    have hrest := ih fun d hd => h d (List.mem_cons_of_mem c hd)
    have hdigit := Char.isDigit_iff_toNat.mp (h c List.mem_cons_self)
    rw [Nat.ofDigitChars_cons]
    rw [Nat.ofDigitChars_eq_ofDigitChars_zero]
    rw [mul_zero]
    rw [zero_add]
    rw [List.length_cons]
    rw [pow_succ]
    have hc : c.toNat - '0'.toNat ≤ 9 := by
      have : '9'.toNat = '0'.toNat + 9 := rfl
      omega
    have hmul := Nat.mul_le_mul_left (10 ^ digits.length) hc
    omega

theorem Shows.lt_of_significantDigits {text : String} {negative : Bool} {hundredths k : Nat}
    (h : Shows text negative hundredths) (hk : significantDigits text ≤ k) : hundredths < 10 ^ k := by
  obtain ⟨whole, cents, htext, -, -, -, hdigits, rfl⟩ := h
  have hfilter : text.toList.filter Char.isDigit = whole ++ cents := by
    have hwhole : ∀ c ∈ whole, c.isDigit = true := fun c hc => hdigits c (List.mem_append_left _ hc)
    have hcents : ∀ c ∈ cents, c.isDigit = true := fun c hc => hdigits c (List.mem_append_right _ hc)
    rw [htext]
    rw [List.filter_append]
    rw [List.filter_append]
    rw [List.filter_cons_of_neg (by decide)]
    rw [List.filter_eq_self.mpr hwhole]
    rw [List.filter_eq_self.mpr hcents]
    cases negative <;> rfl
  unfold significantDigits at hk
  rw [hfilter] at hk
  rw [← ofDigitChars_dropWhile]
  refine (ofDigitChars_lt ?_).trans_le (Nat.pow_le_pow_right (by decide) hk)
  intro c hc
  exact hdigits c (List.dropWhile_sublist _ |>.mem hc)

theorem toList_display (r : Ratio) :
    r.display.toList = (if r.negative then ['-'] else []) ++ Nat.toDigits 10 (r.hundredths / 100) ++
      '.' :: lastDigits 2 r.hundredths := by
  have hcents : lastDigits 2 r.hundredths = lastDigits 2 (r.hundredths % 100) := by
    simp only [lastDigits]
    rw [show r.hundredths % 100 / 10 % 10 = r.hundredths / 10 % 10 by omega]
    rw [show r.hundredths % 100 % 10 = r.hundredths % 10 by omega]
  have hlt : r.hundredths % 100 < 10 ^ 2 := Nat.mod_lt _ (by decide)
  rw [hcents]
  rw [lastDigits_of_lt (by decide) hlt]
  unfold display zeros
  simp only [Nat.toString_eq_ofList_toDigits]
  cases r.negative <;> simp

theorem toList_trimmed_display (r : Ratio) :
    (trimmed r.display).toList =
      (if r.negative then ['-'] else []) ++ Decimal.hundredthsChars r.hundredths := by
  have hzero : ∀ k < 10, (Nat.digitChar k == '0') = decide (k = 0) := by decide
  have hpoint : ∀ k < 10, Nat.digitChar k ≠ '.' := by decide
  have htens : r.hundredths / 10 % 10 < 10 := Nat.mod_lt _ (by decide)
  have hones : r.hundredths % 10 < 10 := Nat.mod_lt _ (by decide)
  unfold trimmed Decimal.hundredthsChars
  rw [toList_display]
  rw [String.toList_ofList]
  rw [← List.append_assoc]
  generalize (if r.negative then ['-'] else []) ++ Nat.toDigits 10 (r.hundredths / 100) = before
  have hsplit : before ++ '.' :: lastDigits 2 r.hundredths =
      before ++ ['.'] ++ [Nat.digitChar (r.hundredths / 10 % 10)] ++ [Nat.digitChar (r.hundredths % 10)] := by
    simp [lastDigits]
  simp only [hsplit, List.rdropWhile_concat, hzero _ hones, hzero _ htens, decide_eq_true_eq]
  by_cases hone : r.hundredths % 10 = 0
  . by_cases hten : r.hundredths / 10 % 10 = 0
    . simp [hone, hten, lastDigits]
    . simp [hone, hten, hpoint _ htens, lastDigits]
  . simp [hone, hpoint _ hones, lastDigits]

theorem text_toBinary64 {r : Ratio} (h : r.hundredths < 10 ^ 15) :
    r.toBinary64.text = trimmed r.display := by
  rw [← String.toList_inj]
  rw [toList_trimmed_display]
  rcases Nat.eq_zero_or_pos r.hundredths with hzero | hpos
  . unfold toBinary64
    rw [hzero]
    cases r.negative <;> rfl
  . obtain ⟨m, e, hfinite, hnormal, hrounds⟩ := exists_isNormal (r := r) (by omega) hpos
    have hs := hnormal.isShortest
    have hm : (m == 0) = false := by simpa using hnormal.pos.ne'
    obtain ⟨trailing, hpoint, hdigits⟩ := shortest_hundredths hnormal hrounds h hpos
    have hhigh : (shortest m e).point - 2 ≤ 13 :=
      ten_zpow_le_iff.mp (hs.point_le.trans (le_ten_zpow hnormal hrounds h))
    have htext := hs.full.toList_text_of_hundredths hs.not_dvd (by omega) hpoint
    rw [← hdigits] at htext
    rw [hfinite]
    unfold Binary64.text
    simp only [hm, Bool.false_eq_true, ↓reduceIte]
    rw [String.toList_append]
    rw [htext]
    cases r.negative <;> rfl

theorem notMem_display {c : Char} (hdigit : c.isDigit = false) (hpoint : c ≠ '.') (hsign : c ≠ '-')
    (r : Ratio) : c ∉ r.display.toList := by
  intro hc
  obtain ⟨whole, cents, htext, -, -, -, hdigits, -⟩ := shows_display r
  rw [htext] at hc
  simp only [List.mem_append, List.mem_cons] at hc
  rcases hc with (hc | hc) | rfl | hc
  . split at hc
    . exact hsign (List.mem_singleton.mp hc)
    . cases hc
  . simp [hdigits c (List.mem_append_left _ hc)] at hdigit
  . exact hpoint rfl
  . simp [hdigits c (List.mem_append_right _ hc)] at hdigit

end Ratio

namespace Json

theorem exists_renderAt_object (layout : Layout) (level : Nat) (first : String × Json)
    (rest : List (String × Json)) (key : String) (value : Json) :
    ∃ before, renderAt layout level (.object (first :: (rest ++ [(key, value)]))) =
      before ++ quote key ++ ": " ++ renderAt layout (level + 1) value ++ layout.lineBreak level ++ "\x7d" := by
  have hrest : ∃ before, renderRest layout (level + 1) (rest ++ [(key, value)]) =
      before ++ quote key ++ ": " ++ renderAt layout (level + 1) value := by
    induction rest with
    | nil =>
      refine ⟨layout.separator ++ layout.lineBreak (level + 1), ?_⟩
      simp [renderRest, renderMember, String.append_assoc]
    | cons member rest ih =>
      obtain ⟨before, hbefore⟩ := ih
      refine ⟨layout.separator ++ renderMember layout (level + 1) member ++ before, ?_⟩
      rw [List.cons_append]
      rw [renderRest]
      rw [hbefore]
      simp [String.append_assoc]
  obtain ⟨before, hbefore⟩ := hrest
  refine ⟨"\x7b" ++ renderMember layout (level + 1) first ++ before, ?_⟩
  rw [renderAt]
  rw [hbefore]
  simp [String.append_assoc]

end Json

namespace Report

open Binary64

def ShowsRatio (r : Report) (shown : String) : Prop :=
  ∃ text, r.toText = .ok text ∧
    (text.toList.splitOn '\n')[2]? = some ("Ratio (OOP:FP): " ++ shown ++ ":1").toList

def PrintsRatio (r : Report) (layout : Json.Layout) (printed : String) : Prop :=
  ' ' ∉ printed.toList ∧
    ∃ before, r.toJsonText layout =
      .ok (before ++ "\"ratio\": " ++ printed ++ layout.lineBreak 0 ++ "\x7d")

theorem notMem_repr {c : Char} (hdigit : c.isDigit = false) (hsign : c ≠ '-') (n : Int) :
    c ∉ n.repr.toList := by
  intro hc
  change c ∈ (toString n).toList at hc
  rw [toList_toString_int] at hc
  rcases List.mem_append.mp hc with hc | hc
  . split at hc
    . exact hsign (List.mem_singleton.mp hc)
    . cases hc
  . simp [Nat.isDigit_of_mem_toDigits (by decide) (by decide) hc] at hdigit

theorem showsRatio_ratioText {r : Report} {ratio : Option Ratio} (h : r.ratio = .ok ratio) :
    r.ShowsRatio (ratioText ratio) := by
  have hnumber := notMem_repr (c := '\n') (by decide) (by decide)
  have hratio : '\n' ∉ (ratioText ratio).toList := by
    cases ratio with
    | none => decide
    | some ratio => exact Ratio.notMem_display (by decide) (by decide) (by decide) ratio
  unfold ShowsRatio toText
  rw [h]
  refine ⟨_, rfl, ?_⟩
  rw [String.toList_intercalate]
  rw [show "\n".toList = ['\n'] from rfl]
  rw [List.splitOn_intercalate '\n']
  . rfl
  . have htext : ∀ text : String, toString text = text := fun _ => rfl
    simp [hnumber, hratio, htext]
  . simp

theorem ShowsRatio.unique {r : Report} {shown shown' : String} (h : r.ShowsRatio shown)
    (h' : r.ShowsRatio shown') : shown = shown' := by
  obtain ⟨text, htext, hline⟩ := h
  obtain ⟨text', htext', hline'⟩ := h'
  rw [htext] at htext'
  cases htext'
  rw [hline] at hline'
  rw [← String.toList_inj]
  simpa using hline'

theorem PrintsRatio.unique {r : Report} {layout : Json.Layout} {printed printed' : String}
    (h : r.PrintsRatio layout printed) (h' : r.PrintsRatio layout printed') : printed = printed' := by
  obtain ⟨hspace, before, hbefore⟩ := h
  obtain ⟨hspace', before', hbefore'⟩ := h'
  rw [hbefore] at hbefore'
  have htexts := congrArg String.toList (Except.ok.inj hbefore')
  simp only [String.toList_append, List.append_cancel_right_eq] at htexts
  -- both are what stands behind the last space
  have hlast : ∀ {before after : List Char}, ' ' ∉ after →
      (before ++ "\"ratio\": ".toList ++ after).rtakeWhile (· != ' ') = after := by
    intro before after hafter
    rw [List.rtakeWhile]
    rw [List.reverse_append]
    rw [List.takeWhile_append_of_pos]
    . simp
    . intro c hc
      rw [List.mem_reverse] at hc
      simpa using ne_of_mem_of_not_mem hc hafter
  rw [← String.toList_inj]
  rw [← hlast hspace]
  rw [htexts]
  exact hlast hspace'

theorem printsRatio_render {r : Report} {ratio : Option Ratio} (h : r.ratio = .ok ratio)
    (layout : Json.Layout) : r.PrintsRatio layout (ratio.elim "null" (·.toBinary64.text)) := by
  constructor
  . cases ratio with
    | none => decide
    | some ratio =>
      obtain ⟨-, hdigits, -⟩ := Ratio.ofTotals_eq_some h
      exact Ratio.notMem_text_toBinary64 (by decide) hdigits
  . obtain ⟨first, rest, hjson⟩ : ∃ first rest, r.toJson =
        .ok (.object (first :: (rest ++ [("ratio", ratio.elim .null (.number ·.toBinary64))]))) := by
      unfold toJson
      rw [h]
      cases ratio with
      | none => exact ⟨_, [_, _, _], rfl⟩
      | some ratio => exact ⟨_, [_, _, _], rfl⟩
    obtain ⟨before, hbefore⟩ := Json.exists_renderAt_object layout 0 first rest "ratio"
      (ratio.elim .null (.number ·.toBinary64))
    have hkey : Json.quote "ratio" ++ ": " = "\"ratio\": " := by decide
    have hvalue : Json.renderAt layout 1 (ratio.elim .null (.number ·.toBinary64)) =
        ratio.elim "null" (·.toBinary64.text) := by
      cases ratio with
      | none => rw [Option.elim_none, Json.renderAt, Option.elim_none]
      | some ratio => rw [Option.elim_some, Json.renderAt, Option.elim_some]
    refine ⟨before, ?_⟩
    unfold toJsonText
    rw [hjson]
    rw [← hkey]
    rw [← String.append_assoc]
    rw [← hvalue]
    exact congrArg Except.ok hbefore

theorem exists_ratio_of_toText {r : Report} {text : String} (h : r.toText = .ok text) :
    ∃ ratio, r.ratio = .ok ratio := by
  apply failure_eq_none_iff.mp
  rw [← failure_write r .text]
  exact congrArg failure h

theorem exists_ratio_of_toJsonText {r : Report} {layout : Json.Layout} {text : String}
    (h : r.toJsonText layout = .ok text) : ∃ ratio, r.ratio = .ok ratio := by
  apply failure_eq_none_iff.mp
  rw [← failure_write r (.json layout)]
  exact congrArg failure h

theorem ratio_eq_none_iff {r : Report} : r.ratio = .ok none ↔ r.totals.fp = 0 := by
  constructor
  . intro h
    by_contra hfp
    obtain ⟨ratio, hratio⟩ := Ratio.exists_ofTotals_eq_some hfp (failure_eq_none_iff.mpr ⟨none, h⟩)
    change r.ratio = .ok (some ratio) at hratio
    rw [h] at hratio
    cases hratio
  . intro hfp
    unfold ratio
    rw [hfp]
    exact Ratio.ofTotals_zero _

theorem showsRatio_inf_iff {r : Report} : r.ShowsRatio "inf" ↔ r.totals.fp = 0 := by
  rw [← ratio_eq_none_iff]
  constructor
  . intro h
    obtain ⟨text, htext, -⟩ := id h
    obtain ⟨ratio, hratio⟩ := exists_ratio_of_toText htext
    have hshown := h.unique (showsRatio_ratioText hratio)
    cases ratio with
    | none => exact hratio
    | some ratio =>
      have hnotMem := Ratio.notMem_display (c := 'i') (by decide) (by decide) (by decide) ratio
      change "inf" = ratio.display at hshown
      rw [← hshown] at hnotMem
      exact absurd (by decide) hnotMem
  . exact showsRatio_ratioText

theorem printsRatio_null_iff {r : Report} {layout : Json.Layout} :
    r.PrintsRatio layout "null" ↔ r.totals.fp = 0 := by
  rw [← ratio_eq_none_iff]
  constructor
  . intro h
    obtain ⟨-, before, hbefore⟩ := id h
    obtain ⟨ratio, hratio⟩ := exists_ratio_of_toJsonText hbefore
    have hprinted := h.unique (printsRatio_render hratio layout)
    cases ratio with
    | none => exact hratio
    | some ratio =>
      obtain ⟨-, hdigits, -⟩ := Ratio.ofTotals_eq_some hratio
      have hnotMem := Ratio.notMem_text_toBinary64 (c := 'u') (by decide) hdigits
      change "null" = ratio.toBinary64.text at hprinted
      rw [← hprinted] at hnotMem
      exact absurd (by decide) hnotMem
  . intro h
    exact printsRatio_render h layout

/--
A report shows one ratio in all of its forms. The text for people has it with two decimals, the text for programs has
the double next to that, and both read alike up to the zeros at the end, at least up to fifteen digits. Without
functional constructs neither has a number.
-/
theorem ratio_shown_alike (r : Report) (layout : Json.Layout) :
    (r.totals.fp ≠ 0 → failure r.ratio = none →
      ∃ (shown printed : String) (negative : Bool) (hundredths significand : Nat) (exponent : Int),
        r.shownRatio = .ok shown ∧ r.ShowsRatio shown ∧ Ratio.Shows shown negative hundredths ∧
        r.numericRatio = .ok (some (.finite negative significand exponent)) ∧
        IsNearest (hundredths / 100) (significand * 2 ^ exponent) ∧
        r.PrintsRatio layout printed ∧
        (Ratio.significantDigits shown ≤ 15 → printed = Ratio.trimmed shown)) ∧
    (r.PrintsRatio layout "null" ↔ r.ShowsRatio "inf") ∧ (r.ShowsRatio "inf" ↔ r.totals.fp = 0) := by
  refine ⟨?_, ?_, ?_⟩
  . intro hfp hfailure
    obtain ⟨ratio, hratio⟩ := Ratio.exists_ofTotals_eq_some hfp hfailure
    obtain ⟨-, hdigits, -⟩ := Ratio.ofTotals_eq_some hratio
    obtain ⟨m, e, hfinite, hnearest⟩ := Ratio.exists_toBinary64_eq hdigits
    change r.ratio = .ok (some ratio) at hratio
    have hshows := showsRatio_ratioText hratio
    have hprints := printsRatio_render hratio layout
    refine ⟨ratio.display, ratio.toBinary64.text, ratio.negative, ratio.hundredths, m, e, ?_, ?_, ?_, ?_, ?_, ?_, ?_⟩
    . unfold shownRatio
      rw [hratio]
      rfl
    . exact hshows
    . exact Ratio.shows_display ratio
    . unfold numericRatio
      rw [hratio]
      rw [← hfinite]
      rfl
    . exact hnearest
    . exact hprints
    . intro hfew
      exact Ratio.text_toBinary64 ((Ratio.shows_display ratio).lt_of_significantDigits hfew)
  . rw [printsRatio_null_iff]
    rw [showsRatio_inf_iff]
  . exact showsRatio_inf_iff

theorem ratio_shown_alike_half :
    ∃ r : Report, r.totals.oop = 5 ∧ r.totals.fp = 2 ∧ r.ShowsRatio "2.50" ∧ r.PrintsRatio .compact "2.5" := by
  refine ⟨{ directory := "d", files := 1, totals := { classes := 5, functions := 2 } }, rfl, rfl, ?_⟩
  obtain ⟨shown, printed, -, -, -, -, hshown, hshows, -, -, -, hprints, htrimmed⟩ :=
    (ratio_shown_alike { directory := "d", files := 1, totals := { classes := 5, functions := 2 } }
      .compact).1 (by decide) rfl
  obtain rfl : "2.50" = shown := Except.ok.inj hshown
  obtain rfl : printed = "2.5" := (htrimmed (by decide)).trans (by decide)
  exact ⟨hshows, hprints⟩

end Report

end ParadigmScan
