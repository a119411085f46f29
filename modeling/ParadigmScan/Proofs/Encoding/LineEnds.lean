import ParadigmScan.Encoding.Decode
import ParadigmScan.Proofs.Encoding.Utf8

/-!
This module contains how the ends of lines go through decoding. A byte of ASCII is a boundary in all bytes, also where
these are not the form of a text. So other line ends in the bytes become other line ends in the text, and nothing else
changes.
-/

namespace ParadigmScan

namespace Encoding

section Boundaries

/--
Two readings take as many bytes and come to the same code point, or both to none.
-/
structure SameReading (reading other : Except Utf8Error CodePoint × Nat) : Prop where
  result : reading.1.toOption = other.1.toOption
  taken : reading.2 = other.2

theorem utf8First_cases (first : UInt8) :
    (∃ result, ∀ rest, utf8First first rest = (result, 0)) ∨
      ∃ low high count value, 0x80 ≤ low ∧
        ∀ rest, utf8First first rest = takeContinuations low high count rest value 0 := by
  unfold utf8First
  by_cases hone : first.toNat < 0x80
  . simp only [hone, ↓reduceIte]
    exact .inl ⟨_, fun _ => rfl⟩
  by_cases hstart : first.toNat < 0xC2
  . simp only [hone, hstart, ↓reduceIte]
    exact .inl ⟨_, fun _ => rfl⟩
  by_cases htwo : first.toNat < 0xE0
  . simp only [hone, hstart, htwo, ↓reduceIte]
    exact .inr ⟨_, _, _, _, by decide, fun _ => rfl⟩
  by_cases hshort : first.toNat = 0xE0
  . simp only [hshort]
    exact .inr ⟨_, _, _, _, by decide, fun _ => rfl⟩
  by_cases hsurrogate : first.toNat = 0xED
  . simp only [hsurrogate]
    exact .inr ⟨_, _, _, _, by decide, fun _ => rfl⟩
  by_cases hthree : first.toNat < 0xF0
  . simp only [hone, hstart, htwo, hshort, hsurrogate, hthree, beq_iff_eq, ↓reduceIte]
    exact .inr ⟨_, _, _, _, by decide, fun _ => rfl⟩
  by_cases hlong : first.toNat = 0xF0
  . simp only [hlong]
    exact .inr ⟨_, _, _, _, by decide, fun _ => rfl⟩
  by_cases hfour : first.toNat < 0xF4
  . simp only [hone, hstart, htwo, hshort, hsurrogate, hthree, hlong, hfour, beq_iff_eq, ↓reduceIte]
    exact .inr ⟨_, _, _, _, by decide, fun _ => rfl⟩
  by_cases hlast : first.toNat = 0xF4
  . simp only [hlast]
    exact .inr ⟨_, _, _, _, by decide, fun _ => rfl⟩
  . simp only [hone, hstart, htwo, hshort, hsurrogate, hthree, hlong, hfour, hlast, beq_iff_eq,
      ↓reduceIte]
    exact .inl ⟨_, fun _ => rfl⟩

theorem takeContinuations_le (low high count : Nat) (rest : List UInt8) (value taken : Nat) :
    (takeContinuations low high count rest value taken).2 ≤ taken + rest.length := by
  fun_induction takeContinuations low high count rest value taken with
  | case1 => simp
  | case2 => simp
  | case3 low high value taken count b rest bits hbits ih =>
    rw [List.length_cons]
    omega
  | case4 => simp

variable {b : UInt8} (hb : b.toNat < 0x80)

include hb in
theorem takeContinuations_append {low high : Nat} (hlow : 0x80 ≤ low) (count : Nat)
    (before after : List UInt8) (value taken : Nat) :
    SameReading (takeContinuations low high count (before ++ b :: after) value taken)
      (takeContinuations low high count before value taken) := by
  induction count generalizing low high before value taken with
  | zero => exact ⟨rfl, rfl⟩
  | succ count ih =>
    cases before with
    | nil =>
      have hnone : continuation low high b = none := by
        unfold continuation
        rw [if_neg]
        simp only [Bool.and_eq_true, decide_eq_true_eq]
        omega
      simp only [List.nil_append, takeContinuations, hnone]
      exact ⟨rfl, rfl⟩
    | cons c before =>
      simp only [List.cons_append, takeContinuations]
      cases continuation low high c with
      | none => exact ⟨rfl, rfl⟩
      | some bits => exact ih (by decide) before (value * 64 + bits) (taken + 1)

include hb in
theorem utf8First_append (first : UInt8) (before after : List UInt8) :
    SameReading (utf8First first (before ++ b :: after)) (utf8First first before) := by
  rcases utf8First_cases first with ⟨result, h⟩ | ⟨low, high, count, value, hlow, h⟩
  . rw [h]
    rw [h]
    exact ⟨rfl, rfl⟩
  . rw [h]
    rw [h]
    exact takeContinuations_append hb hlow count before after value 0

theorem utf8First_le (first : UInt8) (rest : List UInt8) : (utf8First first rest).2 ≤ rest.length := by
  rcases utf8First_cases first with ⟨result, h⟩ | ⟨low, high, count, value, -, h⟩
  . rw [h]
    exact Nat.zero_le _
  . rw [h]
    simpa using takeContinuations_le low high count rest value 0

theorem decodeUtf8_cons (first : UInt8) (rest : List UInt8) :
    decodeUtf8 (first :: rest) =
      (utf8First first rest).1.toOption.getD CodePoint.replacement ::
        decodeUtf8 (rest.drop (utf8First first rest).2) := by
  rw [decodeUtf8]
  cases h : utf8First first rest with
  | mk result taken => cases result <;> simp [Except.toOption]

include hb

theorem decodeUtf8_ascii_cons (rest : List UInt8) :
    decodeUtf8 (b :: rest) = b.toNat :: decodeUtf8 rest := by
  have hfirst : utf8First b rest = (.ok b.toNat, 0) := by
    simp [utf8First, hb]
  rw [decodeUtf8_cons]
  rw [hfirst]
  rfl

theorem decodeUtf8_append_ascii (before after : List UInt8) :
    decodeUtf8 (before ++ b :: after) = decodeUtf8 before ++ b.toNat :: decodeUtf8 after := by
  induction hlength : before.length using Nat.strongRecOn generalizing before with
  | _ length ih =>
    cases before with
    | nil =>
      rw [List.nil_append]
      rw [decodeUtf8_ascii_cons hb]
      simp [decodeUtf8]
    | cons first before =>
      have hreading := utf8First_append hb first before after
      rw [List.length_cons] at hlength
      rw [List.cons_append]
      rw [decodeUtf8_cons]
      rw [decodeUtf8_cons]
      rw [hreading.result]
      rw [hreading.taken]
      rw [List.drop_append_of_le_length (utf8First_le first before)]
      rw [ih _ (by rw [List.length_drop]; omega) _ rfl]
      rfl

end Boundaries

theorem decodeUtf8_ascii_append {bytes : List UInt8} (hbytes : ∀ b ∈ bytes, b.toNat < 0x80)
    (rest : List UInt8) :
    decodeUtf8 (bytes ++ rest) = bytes.map (·.toNat) ++ decodeUtf8 rest := by
  induction bytes with
  | nil => rfl
  | cons b bytes ih =>
    rw [List.forall_mem_cons] at hbytes
    rw [List.cons_append]
    rw [decodeUtf8_ascii_cons hbytes.1]
    rw [ih hbytes.2]
    rfl

theorem mem_of_mem_decodeUtf8 {c : Nat} (hc : c < 0x80) {bytes : List UInt8}
    (h : c ∈ decodeUtf8 bytes) : c.toUInt8 ∈ bytes := by
  fun_induction decodeUtf8 bytes with
  | case1 => simp at h
  | case2 b rest taken c' hfirst ih =>
    rw [List.mem_cons] at h
    rcases h with rfl | h
    . have hform := (utf8First_eq_ok hfirst).2
      rw [utf8Form_one hc] at hform
      rw [← hform]
      simp
    . exact List.mem_cons_of_mem _ (List.mem_of_mem_drop (ih h))
  | case3 b rest taken error hfirst ih =>
    rw [List.mem_cons] at h
    rcases h with rfl | h
    . exact absurd hc (by decide)
    . exact List.mem_cons_of_mem _ (List.mem_of_mem_drop (ih h))

theorem mem_of_mem_encodeUtf8 {b : UInt8} (hb : b.toNat < 0x80) {text : List CodePoint}
    (htext : ∀ c ∈ text, CodePoint.IsScalar c) (h : b ∈ encodeUtf8 text) : b.toNat ∈ text := by
  have hmem : b.toNat ∈ decodeUtf8 (encodeUtf8 text) := by
    obtain ⟨before, after, hsplit⟩ := List.append_of_mem h
    rw [hsplit]
    rw [decodeUtf8_append_ascii hb]
    simp
  rwa [decodeUtf8_encodeUtf8 htext] at hmem

section Substitution

variable {α : Type} [DecidableEq α]

def substitute (old : α) (new : List α) (items : List α) : List α :=
  items.flatMap fun item => if item = old then new else [item]

variable {old : α} (new : List α)

theorem substitute_of_notMem {items : List α} (h : old ∉ items) : substitute old new items = items := by
  induction items with
  | nil => rfl
  | cons item items ih =>
    rw [List.mem_cons] at h
    rw [not_or] at h
    unfold substitute at ih ⊢
    rw [List.flatMap_cons]
    rw [ih h.2]
    rw [if_neg (Ne.symm h.1)]
    rfl

theorem substitute_append_cons (before after : List α) :
    substitute old new (before ++ old :: after) =
      substitute old new before ++ (new ++ substitute old new after) := by
  simp [substitute]

end Substitution

theorem decodeUtf8_substitute {ending : List UInt8} (hne : ending ≠ [])
    (hascii : ∀ b ∈ ending, b.toNat < 0x80) (bytes : List UInt8) :
    decodeUtf8 (substitute 10 ending bytes) =
      substitute 10 (ending.map (·.toNat)) (decodeUtf8 bytes) := by
  induction hlength : bytes.length using Nat.strongRecOn generalizing bytes with
  | _ length ih =>
    by_cases hmem : 10 ∈ bytes
    . obtain ⟨before, after, rfl, hbefore⟩ := List.eq_append_cons_of_mem hmem
      have hbefore' : 10 ∉ decodeUtf8 before :=
        fun h => hbefore (mem_of_mem_decodeUtf8 (by decide) h)
      obtain ⟨b, more, rfl⟩ := List.exists_cons_of_ne_nil hne
      rw [List.forall_mem_cons] at hascii
      rw [substitute_append_cons]
      rw [substitute_of_notMem _ hbefore]
      rw [List.cons_append]
      rw [decodeUtf8_append_ascii hascii.1]
      rw [decodeUtf8_ascii_append hascii.2]
      rw [ih after.length (by rw [← hlength, List.length_append, List.length_cons]; omega) after rfl]
      rw [decodeUtf8_append_ascii (by decide : (10 : UInt8).toNat < 0x80)]
      change _ = substitute 10 _ (decodeUtf8 before ++ 10 :: decodeUtf8 after)
      rw [substitute_append_cons]
      rw [substitute_of_notMem _ hbefore']
      rfl
    . rw [substitute_of_notMem _ hmem]
      rw [substitute_of_notMem]
      exact fun h => hmem (mem_of_mem_decodeUtf8 (by decide) h)

section Unification

variable {text : List CodePoint}

theorem unifyLines_cons {c : Nat} (hc : c ≠ 13) (rest : List CodePoint) :
    unifyLines (c :: rest) = c :: unifyLines rest := by
  rw [unifyLines]
  . exact fun _ h => absurd h hc
  . exact hc

theorem unifyLines_return_cons {rest : List CodePoint} (h : rest.head? ≠ some 10) :
    unifyLines (13 :: rest) = 10 :: unifyLines rest := by
  rw [unifyLines]
  rintro more rfl
  simp at h

theorem isScalar_of_mem_unifyLines {text : List CodePoint} (h : ∀ c ∈ text, CodePoint.IsScalar c) :
    ∀ c ∈ unifyLines text, CodePoint.IsScalar c := by
  have hfeed : CodePoint.IsScalar 10 := by simp [CodePoint.IsScalar]
  fun_induction unifyLines text with
  | case1 rest ih =>
    rw [List.forall_mem_cons]
    exact ⟨hfeed, ih fun c hc => h c (by simp [hc])⟩
  | case2 rest _ ih =>
    rw [List.forall_mem_cons]
    exact ⟨hfeed, ih fun c hc => h c (by simp [hc])⟩
  | case3 c rest _ _ ih =>
    rw [List.forall_mem_cons] at h ⊢
    exact ⟨h.1, ih h.2⟩
  | case4 => simp

theorem notMem_unifyLines (text : List CodePoint) : 13 ∉ unifyLines text := by
  fun_induction unifyLines text with
  | case1 rest ih => simpa using ih
  | case2 rest _ ih => simpa using ih
  | case3 c rest _ hc ih =>
    rw [List.mem_cons]
    rintro (h | h)
    . exact hc h.symm
    . exact ih h
  | case4 => simp

variable (h : 13 ∉ text)

include h

theorem unifyLines_of_notMem : unifyLines text = text := by
  induction text with
  | nil => rfl
  | cons c text ih =>
    rw [List.mem_cons] at h
    rw [not_or] at h
    rw [unifyLines_cons (Ne.symm h.1)]
    rw [ih h.2]

theorem unifyLines_substitute_returnFeed : unifyLines (substitute 10 [13, 10] text) = text := by
  induction text with
  | nil => rfl
  | cons c text ih =>
    rw [List.mem_cons] at h
    rw [not_or] at h
    by_cases hc : c = 10
    . subst hc
      change unifyLines (13 :: 10 :: substitute 10 [13, 10] text) = _
      rw [unifyLines]
      rw [ih h.2]
    . have hcons : substitute 10 [13, 10] (c :: text) = c :: substitute 10 [13, 10] text := by
        simp [substitute, hc]
      rw [hcons]
      rw [unifyLines_cons (Ne.symm h.1)]
      rw [ih h.2]

omit h in
theorem notMem_substitute_return : 10 ∉ substitute 10 [13] text := by
  unfold substitute
  rw [List.mem_flatMap]
  rintro ⟨c, -, hmem⟩
  split at hmem
  . simp at hmem
  . next hc => exact hc (List.mem_singleton.mp hmem).symm

theorem unifyLines_substitute_return : unifyLines (substitute 10 [13] text) = text := by
  induction text with
  | nil => rfl
  | cons c text ih =>
    rw [List.mem_cons] at h
    rw [not_or] at h
    by_cases hc : c = 10
    . subst hc
      change unifyLines (13 :: substitute 10 [13] text) = _
      rw [unifyLines_return_cons]
      . rw [ih h.2]
      . -- no line feed is left that would belong to the return
        exact fun hhead => notMem_substitute_return (List.mem_of_head? hhead)
    . have hcons : substitute 10 [13] (c :: text) = c :: substitute 10 [13] text := by
        simp [substitute, hc]
      rw [hcons]
      rw [unifyLines_cons (Ne.symm h.1)]
      rw [ih h.2]

end Unification

end Encoding

end ParadigmScan
