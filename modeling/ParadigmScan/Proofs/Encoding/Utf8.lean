import Mathlib.Data.List.Monad
import Mathlib.Tactic.Simproc.ExistsAndEq
import ParadigmScan.Encoding.Utf8

/-!
This module contains the relation between text and its UTF-8 form: decoding reads every form back, what it
yields are characters only, and the bytes in which no fault is found are exactly the forms of texts.
-/

namespace ParadigmScan

namespace CodePoint

def IsScalar (c : Nat) : Prop := c < 0xD800 ∨ 0xE000 ≤ c ∧ c < 0x110000

theorem isSurrogate_eq_false {c : Nat} (h : IsScalar c) : isSurrogate c = false := by
  unfold IsScalar at h
  change (decide (0xD800 ≤ c) && decide (c < 0xE000)) = false
  simp only [Bool.and_eq_false_iff, decide_eq_false_iff_not]
  omega

end CodePoint

namespace Encoding

open CodePoint

structure IsUtf8 (text : List CodePoint) (bytes : List UInt8) : Prop where
  scalar : ∀ c ∈ text, IsScalar c
  form : encodeUtf8 text = bytes

theorem toUInt8_add_toNat_sub {n : Nat} {b : UInt8} (h : n ≤ b.toNat) :
    (n + (b.toNat - n)).toUInt8 = b := by
  rw [Nat.add_sub_cancel' h]
  simp

theorem toNat_toUInt8 {n : Nat} (h : n < 256) : n.toUInt8.toNat = n := by
  simpa using h

theorem utf8Form_one {a : Nat} (ha : a < 0x80) : utf8Form a = [a.toUInt8] := by
  simp [utf8Form, ha]

theorem utf8Form_two {a b : Nat} (ha : 2 ≤ a) (ha' : a < 32) (hb : b < 64) :
    utf8Form (a * 64 + b) = [(0xC0 + a).toUInt8, (0x80 + b).toUInt8] := by
  have h1 : ¬ a * 64 + b < 0x80 := by omega
  have h2 : a * 64 + b < 0x800 := by omega
  have h3 : (a * 64 + b) / 64 = a := by omega
  have h4 : (a * 64 + b) / Nat.pow 2 0 % 64 = b := by
    simp only [Nat.pow_eq, Nat.pow_zero, Nat.div_one]
    omega
  unfold utf8Form
  simp only [h1, h2, h3, h4, ↓reduceIte]

theorem utf8Form_three {a b c : Nat} (ha : a < 16) (hb : b < 64) (hc : c < 64)
    (hlow : 0x800 ≤ (a * 64 + b) * 64 + c) :
    utf8Form ((a * 64 + b) * 64 + c) =
      [(0xE0 + a).toUInt8, (0x80 + b).toUInt8, (0x80 + c).toUInt8] := by
  have h1 : ¬ (a * 64 + b) * 64 + c < 0x80 := by omega
  have h2 : ¬ (a * 64 + b) * 64 + c < 0x800 := by omega
  have h3 : (a * 64 + b) * 64 + c < 0x10000 := by omega
  have h4 : ((a * 64 + b) * 64 + c) / 4096 = a := by omega
  have h5 : ((a * 64 + b) * 64 + c) / Nat.pow 2 6 % 64 = b := by
    simp only [Nat.pow_eq, Nat.reducePow]
    omega
  have h6 : ((a * 64 + b) * 64 + c) / Nat.pow 2 0 % 64 = c := by
    simp only [Nat.pow_eq, Nat.pow_zero, Nat.div_one]
    omega
  unfold utf8Form
  simp only [h1, h2, h3, h4, h5, h6, ↓reduceIte]

theorem utf8Form_four {a b c d : Nat} (hb : b < 64) (hc : c < 64) (hd : d < 64)
    (hlow : 0x10000 ≤ ((a * 64 + b) * 64 + c) * 64 + d) :
    utf8Form (((a * 64 + b) * 64 + c) * 64 + d) =
      [(0xF0 + a).toUInt8, (0x80 + b).toUInt8, (0x80 + c).toUInt8, (0x80 + d).toUInt8] := by
  have h1 : ¬ ((a * 64 + b) * 64 + c) * 64 + d < 0x80 := by omega
  have h2 : ¬ ((a * 64 + b) * 64 + c) * 64 + d < 0x800 := by omega
  have h3 : ¬ ((a * 64 + b) * 64 + c) * 64 + d < 0x10000 := by omega
  have h4 : (((a * 64 + b) * 64 + c) * 64 + d) / 262144 = a := by omega
  have h5 : (((a * 64 + b) * 64 + c) * 64 + d) / Nat.pow 2 12 % 64 = b := by
    simp only [Nat.pow_eq, Nat.reducePow]
    omega
  have h6 : (((a * 64 + b) * 64 + c) * 64 + d) / Nat.pow 2 6 % 64 = c := by
    simp only [Nat.pow_eq, Nat.reducePow]
    omega
  have h7 : (((a * 64 + b) * 64 + c) * 64 + d) / Nat.pow 2 0 % 64 = d := by
    simp only [Nat.pow_eq, Nat.pow_zero, Nat.div_one]
    omega
  unfold utf8Form
  simp only [h1, h2, h3, h4, h5, h6, h7, ↓reduceIte]

theorem takeContinuations_zero_eq_ok_iff {low high value taken count c : Nat} {rest : List UInt8} :
    takeContinuations low high 0 rest value taken = (.ok c, count) ↔ c = value ∧ count = taken := by
  simp [takeContinuations, eq_comm]

theorem takeContinuations_succ_eq_ok_iff {low high left value taken count c : Nat}
    {rest : List UInt8} :
    takeContinuations low high (left + 1) rest value taken = (.ok c, count) ↔
      ∃ b more, rest = b :: more ∧ low ≤ b.toNat ∧ b.toNat ≤ high ∧
        takeContinuations 0x80 0xBF left more (value * 64 + (b.toNat - 0x80)) (taken + 1) =
          (.ok c, count) := by
  cases rest with
  | nil => simp [takeContinuations]
  | cons b more =>
    simp only [takeContinuations, continuation, Bool.and_eq_true, decide_eq_true_eq,
      List.cons.injEq]
    by_cases hb : low ≤ b.toNat ∧ b.toNat ≤ high
    . simp [hb]
    . simp only [hb, ↓reduceIte]
      grind

section Forms

variable {b : UInt8} {rest : List UInt8} {low high value c taken : Nat}

theorem form_of_two (hb : b.toNat = 0xC0 + value) (hvalue : 2 ≤ value) (hvalue' : value < 32)
    (h : takeContinuations 0x80 0xBF 1 rest value 0 = (.ok c, taken)) :
    IsScalar c ∧ utf8Form c ++ rest.drop taken = b :: rest := by
  simp only [takeContinuations_succ_eq_ok_iff, takeContinuations_zero_eq_ok_iff] at h
  obtain ⟨b', more, hrest, hlow, hhigh, hc, htaken⟩ := h
  have hform : utf8Form (value * 64 + (b'.toNat - 0x80)) = [b, b'] := by
    rw [utf8Form_two hvalue hvalue' (by omega)]
    rw [toUInt8_add_toNat_sub (by omega)]
    rw [← hb]
    simp
  rw [hc]
  rw [hform]
  rw [htaken]
  rw [hrest]
  refine ⟨?_, by simp⟩
  unfold IsScalar
  omega

theorem form_of_three (hb : b.toNat = 0xE0 + value) (hvalue : value < 16) (hlow : 0x80 ≤ low)
    (hhigh : high ≤ 0xBF) (hshort : value = 0 → 0xA0 ≤ low)
    (hsurrogate : value = 0x0D → high ≤ 0x9F)
    (h : takeContinuations low high 2 rest value 0 = (.ok c, taken)) :
    IsScalar c ∧ utf8Form c ++ rest.drop taken = b :: rest := by
  simp only [takeContinuations_succ_eq_ok_iff, takeContinuations_zero_eq_ok_iff] at h
  obtain ⟨b', more, hrest, hlow', hhigh', b'', more', hmore, hlow'', hhigh'', hc, htaken⟩ := h
  have hform : utf8Form ((value * 64 + (b'.toNat - 0x80)) * 64 + (b''.toNat - 0x80)) =
      [b, b', b''] := by
    rw [utf8Form_three hvalue (by omega) (by omega) (by omega)]
    rw [toUInt8_add_toNat_sub (by omega)]
    rw [toUInt8_add_toNat_sub (by omega)]
    rw [← hb]
    simp
  rw [hc]
  rw [hform]
  rw [htaken]
  rw [hrest]
  rw [hmore]
  refine ⟨?_, by simp⟩
  unfold IsScalar
  omega

theorem form_of_four (hb : b.toNat = 0xF0 + value) (hvalue : value < 5) (hlow : 0x80 ≤ low)
    (hhigh : high ≤ 0xBF) (hshort : value = 0 → 0x90 ≤ low) (hlarge : value = 4 → high ≤ 0x8F)
    (h : takeContinuations low high 3 rest value 0 = (.ok c, taken)) :
    IsScalar c ∧ utf8Form c ++ rest.drop taken = b :: rest := by
  simp only [takeContinuations_succ_eq_ok_iff, takeContinuations_zero_eq_ok_iff] at h
  obtain ⟨b1, more1, hrest, hlow1, hhigh1, b2, more2, hmore1, hlow2, hhigh2, b3, more3, hmore2,
    hlow3, hhigh3, hc, htaken⟩ := h
  have hform : utf8Form (((value * 64 + (b1.toNat - 0x80)) * 64 + (b2.toNat - 0x80)) * 64 +
      (b3.toNat - 0x80)) = [b, b1, b2, b3] := by
    rw [utf8Form_four (by omega) (by omega) (by omega) (by omega)]
    rw [toUInt8_add_toNat_sub (by omega)]
    rw [toUInt8_add_toNat_sub (by omega)]
    rw [toUInt8_add_toNat_sub (by omega)]
    rw [← hb]
    simp
  rw [hc]
  rw [hform]
  rw [htaken]
  rw [hrest]
  rw [hmore1]
  rw [hmore2]
  refine ⟨?_, by simp⟩
  unfold IsScalar
  omega

-- The branches of `utf8First` differ in the bounds for the second byte only, which exclude the forms that
-- are too long, the surrogates and what lies above the last character.
theorem utf8First_eq_ok (h : utf8First b rest = (.ok c, taken)) :
    IsScalar c ∧ utf8Form c ++ rest.drop taken = b :: rest := by
  have hb := b.toNat_lt
  simp only [utf8First, beq_iff_eq] at h
  split at h
  . next hone =>
    simp only [Prod.mk.injEq, Except.ok.injEq] at h
    obtain ⟨rfl, rfl⟩ := h
    rw [utf8Form_one hone]
    refine ⟨?_, by simp⟩
    unfold IsScalar
    omega
  split at h
  . simp at h
  split at h
  . exact form_of_two (by omega) (by omega) (by omega) h
  split at h
  . exact form_of_three (by omega) (by omega) (by omega) (by omega) (by omega) (by omega) h
  split at h
  . exact form_of_three (by omega) (by omega) (by omega) (by omega) (by omega) (by omega) h
  split at h
  . exact form_of_three (by omega) (by omega) (by omega) (by omega) (by omega) (by omega) h
  split at h
  . exact form_of_four (by omega) (by omega) (by omega) (by omega) (by omega) (by omega) h
  split at h
  . exact form_of_four (by omega) (by omega) (by omega) (by omega) (by omega) (by omega) h
  split at h
  . exact form_of_four (by omega) (by omega) (by omega) (by omega) (by omega) (by omega) h
  . simp at h

end Forms

section Readings

variable {a b c d : Nat} (rest : List UInt8)

theorem takeContinuations_cons {low high : Nat} (left value taken : Nat) (hb : b < 64)
    (hlow : low ≤ 0x80 + b) (hhigh : 0x80 + b ≤ high) :
    takeContinuations low high (left + 1) ((0x80 + b).toUInt8 :: rest) value taken =
      takeContinuations 0x80 0xBF left rest (value * 64 + b) (taken + 1) := by
  have hbyte : (0x80 + b).toUInt8.toNat = 0x80 + b := toNat_toUInt8 (by omega)
  simp only [takeContinuations, continuation, hbyte, hlow, hhigh, Nat.add_sub_cancel_left,
    decide_true, Bool.and_self, ↓reduceIte]

theorem utf8First_two (ha : 2 ≤ a) (ha' : a < 32) (hb : b < 64) :
    utf8First (0xC0 + a).toUInt8 ((0x80 + b).toUInt8 :: rest) = (.ok (a * 64 + b), 1) := by
  have hfirst : (0xC0 + a).toUInt8.toNat = 0xC0 + a := toNat_toUInt8 (by omega)
  simp only [utf8First, hfirst]
  rw [if_neg (by omega)]
  rw [if_neg (by omega)]
  rw [if_pos (by omega)]
  rw [takeContinuations_cons _ _ _ _ hb (by omega) (by omega)]
  rw [Nat.add_sub_cancel_left]
  rfl

theorem utf8First_three (ha : a < 16) (hb : b < 64) (hc : c < 64)
    (hlow : 0x800 ≤ (a * 64 + b) * 64 + c) (hscalar : IsScalar ((a * 64 + b) * 64 + c)) :
    utf8First (0xE0 + a).toUInt8 ((0x80 + b).toUInt8 :: (0x80 + c).toUInt8 :: rest) =
      (.ok ((a * 64 + b) * 64 + c), 2) := by
  have hfirst : (0xE0 + a).toUInt8.toNat = 0xE0 + a := toNat_toUInt8 (by omega)
  unfold IsScalar at hscalar
  simp only [utf8First, hfirst, beq_iff_eq]
  rw [if_neg (by omega)]
  rw [if_neg (by omega)]
  rw [if_neg (by omega)]
  split
  . next hshort =>
    have ha : a = 0 := by omega
    subst ha
    rw [takeContinuations_cons _ _ _ _ hb (by omega) (by omega)]
    rw [takeContinuations_cons _ _ _ _ hc (by omega) (by omega)]
    rfl
  split
  . next hsurrogate =>
    have ha : a = 0x0D := by omega
    subst ha
    rw [takeContinuations_cons _ _ _ _ hb (by omega) (by omega)]
    rw [takeContinuations_cons _ _ _ _ hc (by omega) (by omega)]
    rfl
  rw [if_pos (by omega)]
  rw [takeContinuations_cons _ _ _ _ hb (by omega) (by omega)]
  rw [takeContinuations_cons _ _ _ _ hc (by omega) (by omega)]
  rw [Nat.add_sub_cancel_left]
  rfl

theorem utf8First_four (hb : b < 64) (hc : c < 64) (hd : d < 64)
    (hlow : 0x10000 ≤ ((a * 64 + b) * 64 + c) * 64 + d)
    (hhigh : ((a * 64 + b) * 64 + c) * 64 + d < 0x110000) :
    utf8First (0xF0 + a).toUInt8
        ((0x80 + b).toUInt8 :: (0x80 + c).toUInt8 :: (0x80 + d).toUInt8 :: rest) =
      (.ok (((a * 64 + b) * 64 + c) * 64 + d), 3) := by
  have hfirst : (0xF0 + a).toUInt8.toNat = 0xF0 + a := toNat_toUInt8 (by omega)
  simp only [utf8First, hfirst, beq_iff_eq]
  rw [if_neg (by omega)]
  rw [if_neg (by omega)]
  rw [if_neg (by omega)]
  rw [if_neg (by omega)]
  rw [if_neg (by omega)]
  rw [if_neg (by omega)]
  split
  . next hshort =>
    have ha : a = 0 := by omega
    subst ha
    rw [takeContinuations_cons _ _ _ _ hb (by omega) (by omega)]
    rw [takeContinuations_cons _ _ _ _ hc (by omega) (by omega)]
    rw [takeContinuations_cons _ _ _ _ hd (by omega) (by omega)]
    rfl
  split
  . rw [takeContinuations_cons _ _ _ _ hb (by omega) (by omega)]
    rw [takeContinuations_cons _ _ _ _ hc (by omega) (by omega)]
    rw [takeContinuations_cons _ _ _ _ hd (by omega) (by omega)]
    rw [Nat.add_sub_cancel_left]
    rfl
  . have ha : a = 4 := by omega
    subst ha
    rw [if_pos (by omega)]
    rw [takeContinuations_cons _ _ _ _ hb (by omega) (by omega)]
    rw [takeContinuations_cons _ _ _ _ hc (by omega) (by omega)]
    rw [takeContinuations_cons _ _ _ _ hd (by omega) (by omega)]
    rfl

end Readings

theorem utf8First_utf8Form {c : Nat} (h : IsScalar c) (rest : List UInt8) :
    ∃ b tail, utf8Form c = b :: tail ∧ utf8First b (tail ++ rest) = (.ok c, tail.length) := by
  have hlarge : c < 0x110000 := by
    unfold IsScalar at h
    omega
  by_cases hone : c < 0x80
  . have hb : c.toUInt8.toNat = c := toNat_toUInt8 (by omega)
    refine ⟨_, _, utf8Form_one hone, ?_⟩
    simp [utf8First, hb, hone]
  by_cases htwo : c < 0x800
  . have hc : c = c / 64 * 64 + c % 64 := by omega
    rw [hc]
    refine ⟨_, _, utf8Form_two (by omega) (by omega) (by omega), ?_⟩
    exact utf8First_two rest (by omega) (by omega) (by omega)
  by_cases hthree : c < 0x10000
  . have hc : c = (c / 4096 * 64 + c / 64 % 64) * 64 + c % 64 := by omega
    rw [hc] at h ⊢
    refine ⟨_, _, utf8Form_three (by omega) (by omega) (by omega) (by omega), ?_⟩
    exact utf8First_three rest (by omega) (by omega) (by omega) (by omega) h
  . have hc : c = ((c / 262144 * 64 + c / 4096 % 64) * 64 + c / 64 % 64) * 64 + c % 64 := by omega
    rw [hc]
    refine ⟨_, _, utf8Form_four (by omega) (by omega) (by omega) (by omega), ?_⟩
    exact utf8First_four rest (by omega) (by omega) (by omega) (by omega) (by omega)

theorem isScalar_of_mem_decodeUtf8 (bytes : List UInt8) : ∀ c ∈ decodeUtf8 bytes, IsScalar c := by
  fun_induction decodeUtf8 bytes with
  | case1 => simp
  | case2 b rest taken c hfirst ih =>
    rw [List.forall_mem_cons]
    exact ⟨(utf8First_eq_ok hfirst).1, ih⟩
  | case3 b rest taken error hfirst ih =>
    rw [List.forall_mem_cons]
    refine ⟨?_, ih⟩
    unfold IsScalar
    decide

theorem decodeUtf8_encodeUtf8 {text : List CodePoint} (h : ∀ c ∈ text, IsScalar c) :
    decodeUtf8 (encodeUtf8 text) = text := by
  induction text with
  | nil => simp [encodeUtf8, decodeUtf8]
  | cons c text ih =>
    rw [List.forall_mem_cons] at h
    obtain ⟨b, tail, hform, hfirst⟩ := utf8First_utf8Form h.1 (encodeUtf8 text)
    have hencode : encodeUtf8 (c :: text) = b :: (tail ++ encodeUtf8 text) := by
      simp [encodeUtf8, hform]
    rw [hencode]
    rw [decodeUtf8]
    simp [hfirst, ih h.2]

theorem utf8Fault?_encodeUtf8 {text : List CodePoint} (h : ∀ c ∈ text, IsScalar c)
    (position : Nat) : utf8Fault? position (encodeUtf8 text) = none := by
  induction text generalizing position with
  | nil => simp [encodeUtf8, utf8Fault?]
  | cons c text ih =>
    rw [List.forall_mem_cons] at h
    obtain ⟨b, tail, hform, hfirst⟩ := utf8First_utf8Form h.1 (encodeUtf8 text)
    have hencode : encodeUtf8 (c :: text) = b :: (tail ++ encodeUtf8 text) := by
      simp [encodeUtf8, hform]
    rw [hencode]
    rw [utf8Fault?]
    simp [hfirst, ih h.2]

theorem encodeUtf8_decodeUtf8 {position : Nat} {bytes : List UInt8}
    (h : utf8Fault? position bytes = none) : encodeUtf8 (decodeUtf8 bytes) = bytes := by
  fun_induction utf8Fault? position bytes with
  | case1 => simp [encodeUtf8, decodeUtf8]
  | case2 position b rest taken c hfirst ih =>
    rw [decodeUtf8]
    simp only [hfirst]
    rw [← (utf8First_eq_ok hfirst).2]
    simpa [encodeUtf8] using ih h
  | case3 => simp at h

theorem utf8Fault?_eq_none_iff {bytes : List UInt8} :
    utf8Fault? 0 bytes = none ↔ ∃ text, IsUtf8 text bytes := by
  constructor
  . intro h
    exact ⟨decodeUtf8 bytes, isScalar_of_mem_decodeUtf8 bytes, encodeUtf8_decodeUtf8 h⟩
  . rintro ⟨text, hscalar, rfl⟩
    exact utf8Fault?_encodeUtf8 hscalar 0

theorem IsUtf8.decodeUtf8_eq {text : List CodePoint} {bytes : List UInt8} (h : IsUtf8 text bytes) :
    decodeUtf8 bytes = text := by
  rw [← h.form]
  exact decodeUtf8_encodeUtf8 h.scalar

end Encoding

end ParadigmScan
