import Mathlib.Data.List.TakeWhile
import ParadigmScan.Proofs.Json.Grammar

/-!
This module contains that the reader reads exactly the texts of the grammar, and as what they stand for.
-/

namespace ParadigmScan

namespace Json

section Heads

def Lacks (p : Char → Bool) (rest : List Char) : Prop := ∀ c ∈ rest.head?, p c = false

theorem lacks_cons {p : Char → Bool} {c : Char} {rest : List Char} (h : p c = false) : Lacks p (c :: rest) := by
  simpa [Lacks] using h

theorem Lacks.mono {p q : Char → Bool} {rest : List Char} (h : Lacks p rest) (hq : ∀ c, q c = true → p c = true) :
    Lacks q rest := by
  intro c hc
  have hfalse := h c hc
  cases htrue : q c with
  | false => rfl
  | true =>
    rw [hq c htrue] at hfalse
    exact hfalse

theorem Lacks.append {p : Char → Bool} {before rest : List Char} (h : Lacks p before) (hrest : Lacks p rest) :
    Lacks p (before ++ rest) := by
  cases before with
  | nil => exact hrest
  | cons c before => exact lacks_cons (h c rfl)

theorem takeWhile_append {p : Char → Bool} {text rest : List Char} (h : ∀ c ∈ text, p c = true)
    (hrest : Lacks p rest) : (text ++ rest).takeWhile p = text := by
  rw [List.takeWhile_append_of_pos h]
  cases rest with
  | nil => simp
  | cons c rest => simp [hrest c rfl]

theorem dropWhile_append {p : Char → Bool} {text rest : List Char} (h : ∀ c ∈ text, p c = true)
    (hrest : Lacks p rest) : (text ++ rest).dropWhile p = rest := by
  rw [List.dropWhile_append_of_pos h]
  cases rest with
  | nil => simp
  | cons c rest => simp [hrest c rfl]

end Heads

section Numerals

def isMark (c : Char) : Bool := c == 'e' || c == 'E'

def continuesNumeral (c : Char) : Bool := c.isDigit || c == '.' || isMark c

theorem readFraction_append {n : Numeral} (h : n.IsWellFormed) {rest : List Char}
    (hdigit : Lacks Char.isDigit rest) (hpoint : Lacks (· == '.') rest) :
    readFraction (n.fractionText ++ rest) = some (n.fraction, rest) := by
  have hdigits := h.fraction_isDigit
  unfold readFraction Numeral.fractionText
  split
  . next hnil =>
    have hne : rest.head? ≠ some '.' := by
      intro hhead
      simpa using hpoint '.' hhead
    simp [hnil, hne]
  . next hne => simp [takeWhile_append hdigits hdigit, dropWhile_append hdigits hdigit, hne]

theorem find?_marks {mark digits rest : List Char} (hmark : mark ∈ Numeral.marks) (hne : digits ≠ [])
    (hdigits : ∀ c ∈ digits, c.isDigit = true) :
    Numeral.marks.find? (·.isPrefixOf (mark ++ (digits ++ rest))) = some mark := by
  obtain ⟨d, digits, rfl⟩ := List.exists_cons_of_ne_nil hne
  have hdigit := hdigits d List.mem_cons_self
  have hplus : d ≠ '+' := by
    rintro rfl
    exact absurd hdigit (by decide)
  have hminus : d ≠ '-' := by
    rintro rfl
    exact absurd hdigit (by decide)
  simp only [Numeral.marks, List.mem_cons, List.not_mem_nil, or_false] at hmark
  rcases hmark with rfl | rfl | rfl | rfl | rfl | rfl <;>
    simp [Numeral.marks, List.isPrefixOf, hplus.symm, hminus.symm]

theorem find?_marks_eq_none {rest : List Char} (h : Lacks isMark rest) :
    Numeral.marks.find? (·.isPrefixOf rest) = none := by
  cases rest with
  | nil => rfl
  | cons c rest =>
    have hc := h c rfl
    simp only [isMark, Bool.or_eq_false_iff, beq_eq_false_iff_ne] at hc
    simp [Numeral.marks, List.isPrefixOf, hc.1.symm, hc.2.symm]

theorem readExponent_append {n : Numeral} (h : n.IsWellFormed) {rest : List Char}
    (hdigit : Lacks Char.isDigit rest) (hmark : Lacks isMark rest) :
    readExponent (n.exponentText ++ rest) = some (n.exponent, rest) := by
  unfold readExponent Numeral.exponentText
  cases hexponent : n.exponent with
  | none =>
    simp only [Option.elim_none, List.nil_append]
    rw [find?_marks_eq_none hmark]
  | some part =>
    obtain ⟨hmark, hne, hdigits⟩ := h.exponent part hexponent
    simp only [Option.elim_some, List.append_assoc]
    rw [find?_marks hmark hne hdigits]
    simp [takeWhile_append hdigits hdigit, dropWhile_append hdigits hdigit, hne]

theorem lacks_exponentText {n : Numeral} (h : n.IsWellFormed) {p : Char → Bool}
    (hp : p 'e' = false ∧ p 'E' = false) : Lacks p n.exponentText := by
  unfold Numeral.exponentText
  cases hexponent : n.exponent with
  | none => simp [Lacks]
  | some part =>
    have hmarks : ∀ mark ∈ Numeral.marks, ∃ c rest, mark = c :: rest ∧ p c = false := by
      simp [Numeral.marks, hp.1, hp.2]
    obtain ⟨c, rest, hmark, hc⟩ := hmarks _ (h.exponent part hexponent).1
    rw [Option.elim_some]
    rw [hmark]
    exact lacks_cons hc

theorem readUnsigned_append {n : Numeral} (h : n.IsWellFormed) {rest : List Char}
    (hrest : Lacks continuesNumeral rest) :
    readUnsigned n.negative (n.unsignedText ++ rest) = some (n, rest) := by
  have hdigit : Lacks Char.isDigit rest := hrest.mono fun c hc => by simp [continuesNumeral, hc]
  have hpoint : Lacks (· == '.') rest := hrest.mono fun c hc => by simp_all [continuesNumeral]
  have hmark : Lacks isMark rest := hrest.mono fun c hc => by simp [continuesNumeral, hc]
  have hexponent : Lacks Char.isDigit (n.exponentText ++ rest) :=
    (lacks_exponentText h ⟨rfl, rfl⟩).append hdigit
  have hafter : Lacks Char.isDigit (n.fractionText ++ (n.exponentText ++ rest)) := by
    unfold Numeral.fractionText
    split
    . exact hexponent
    . exact lacks_cons rfl
  have hwhole : ¬(n.whole = [] ∨ n.whole.head? = some '0' ∧ n.whole ≠ ['0']) := by
    have := h.whole_ne_nil
    have := h.whole_head
    tauto
  unfold readUnsigned Numeral.unsignedText
  simp only [List.append_assoc, takeWhile_append h.whole_isDigit hafter, dropWhile_append h.whole_isDigit hafter,
    hwhole, ↓reduceIte]
  rw [readFraction_append h hexponent ((lacks_exponentText h ⟨rfl, rfl⟩).append hpoint)]
  simp [readExponent_append h hdigit hmark]

theorem readNumeral_append {n : Numeral} (h : n.IsWellFormed) {rest : List Char}
    (hrest : Lacks continuesNumeral rest) : readNumeral (n.text ++ rest) = some (n, rest) := by
  have hread := readUnsigned_append h hrest
  unfold readNumeral Numeral.text
  cases hnegative : n.negative with
  | false =>
    -- the first character is a digit then
    have hhead : (n.unsignedText ++ rest).head? ≠ some '-' := by
      obtain ⟨d, digits, hwhole⟩ := List.exists_cons_of_ne_nil h.whole_ne_nil
      have hdigit := h.whole_isDigit d (by simp [hwhole])
      unfold Numeral.unsignedText
      rw [hwhole]
      rintro heq
      cases heq
      exact absurd hdigit (by decide)
    rw [hnegative] at hread
    simp only [Bool.false_eq_true, ↓reduceIte, List.nil_append, hhead]
    exact hread
  | true =>
    rw [hnegative] at hread
    simpa using hread

theorem exists_cons_text {n : Numeral} (h : n.IsWellFormed) :
    ∃ c rest, n.text = c :: rest ∧ (c.isDigit || c == '-') = true := by
  unfold Numeral.text
  cases n.negative with
  | true => exact ⟨_, _, rfl, by decide⟩
  | false =>
    obtain ⟨d, digits, hwhole⟩ := List.exists_cons_of_ne_nil h.whole_ne_nil
    have hdigit := h.whole_isDigit d (by simp [hwhole])
    refine ⟨d, digits ++ (n.fractionText ++ n.exponentText), ?_, by simp [hdigit]⟩
    simp [Numeral.unsignedText, hwhole]

theorem ne_of_isDigit_or {c other : Char} (h : (c.isDigit || c == '-') = true)
    (hother : (other.isDigit || other == '-') = false) : c ≠ other := by
  rintro rfl
  rw [h] at hother
  cases hother

end Numerals

section Strings

theorem IsUnit.exists_cons {unit : List Char} {point : CodePoint} (h : IsUnit unit point) :
    ∃ c rest, unit = c :: rest ∧ c ≠ '"' := by
  cases h with
  | plain _ hquote _ => exact ⟨_, _, rfl, hquote⟩
  | short _ => exact ⟨_, _, rfl, by decide⟩
  | hex => exact ⟨_, _, rfl, by decide⟩

theorem IsUnit.readUnit_append {unit : List Char} {point : CodePoint} (h : IsUnit unit point)
    (rest : List Char) : readUnit (unit ++ rest) = some (point, rest) := by
  cases h with
  | plain hlow hquote hescape => simp [readUnit, hquote, hescape, not_lt.mpr hlow]
  | short hmem =>
    simp only [shortEscapes, List.mem_cons, Prod.mk.injEq, List.not_mem_nil, or_false] at hmem
    rcases hmem with ⟨rfl, rfl⟩ | ⟨rfl, rfl⟩ | ⟨rfl, rfl⟩ | ⟨rfl, rfl⟩ | ⟨rfl, rfl⟩ | ⟨rfl, rfl⟩ |
      ⟨rfl, rfl⟩ | ⟨rfl, rfl⟩ <;> rfl
  | hex ha hb hc hd => simp [readUnit, readHex, ha, hb, hc, hd]

theorem IsContent.readContent_append {content : List Char} {points : List CodePoint}
    (h : IsContent content points) {fuel : Nat} (hfuel : content.length < fuel) (rest : List Char) :
    readContent fuel (content ++ '"' :: rest) = some (points, rest) := by
  induction h generalizing fuel with
  | nil =>
    obtain ⟨fuel, rfl⟩ := Nat.exists_eq_add_one.mpr (Nat.zero_lt_of_lt hfuel)
    simp [readContent]
  | @cons unit content point points hunit _ ih =>
    obtain ⟨fuel, rfl⟩ := Nat.exists_eq_add_one.mpr (Nat.zero_lt_of_lt hfuel)
    obtain ⟨c, tail, hcons, hquote⟩ := hunit.exists_cons
    have hread := hunit.readUnit_append (content ++ '"' :: rest)
    rw [hcons] at hfuel hread ⊢
    simp only [List.cons_append, List.length_cons, List.length_append] at hfuel
    rw [List.append_assoc]
    rw [readContent]
    rw [hread]
    simp [hquote, @ih fuel (by omega)]

theorem IsText.readText_append {text : List Char} {value : List CodePoint} (h : IsText text value)
    {fuel : Nat} (hfuel : text.length ≤ fuel) (rest : List Char) :
    readText fuel (text ++ rest) = some (value, rest) := by
  cases h with
  | @mk content points hcontent =>
    simp only [List.cons_append, List.length_cons, List.length_append] at hfuel
    have hread := hcontent.readContent_append (by omega : content.length < fuel) rest
    simp [readText, hread]

end Strings

section Values

theorem lacks_continuesNumeral_of_areBlank {blanks rest : List Char} (h : AreBlank blanks)
    (hrest : Lacks continuesNumeral rest) : Lacks continuesNumeral (blanks ++ rest) := by
  cases blanks with
  | nil => exact hrest
  | cons c blanks =>
    apply lacks_cons
    have hc := h c List.mem_cons_self
    simp only [isBlank, Bool.or_eq_true, beq_iff_eq] at hc
    rcases hc with ((rfl | rfl) | rfl) | rfl <;> rfl

theorem IsValue.exists_cons {text : List Char} {value : Data} (h : IsValue text value) :
    ∃ c rest, text = c :: rest ∧ isBlank c = false ∧ c ≠ ']' := by
  cases h with
  | word hword =>
    simp only [words, List.mem_cons, Prod.mk.injEq, List.not_mem_nil, or_false] at hword
    rcases hword with ⟨rfl, -⟩ | ⟨rfl, -⟩ | ⟨rfl, -⟩ <;> exact ⟨_, _, rfl, by decide, by decide⟩
  | text htext =>
    cases htext
    exact ⟨_, _, rfl, by decide, by decide⟩
  | emptyList | list | emptyObject | object => exact ⟨_, _, rfl, by decide, by decide⟩
  | number hn =>
    obtain ⟨c, rest, hcons, hc⟩ := exists_cons_text hn
    refine ⟨c, rest, hcons, ?_, ne_of_isDigit_or hc (by decide)⟩
    have hne : ∀ {other : Char}, (other.isDigit || other == '-') = false → (c == other) = false := fun hother =>
      beq_eq_false_iff_ne.mpr (ne_of_isDigit_or hc hother)
    unfold isBlank
    rw [hne rfl, hne rfl, hne rfl, hne rfl]
    rfl

theorem IsItem.readItem_append {read : List Char → Option (Data × List Char)} {text : List Char} {value : Data}
    (h : IsItem text value)
    (hread : ∀ {inner}, IsValue inner value → inner.length ≤ text.length → ∀ {rest}, Lacks continuesNumeral rest →
      read (inner ++ rest) = some (value, rest))
    {rest : List Char} (hnumeral : Lacks continuesNumeral rest) (hblank : Lacks isBlank rest) :
    readItem read (text ++ rest) = some (value, rest) := by
  cases h with
  | @mk before inner after _ hbefore hvalue hafter =>
    have hlength : inner.length ≤ (before ++ inner ++ after).length := by
      simp only [List.length_append]
      omega
    have hnext := hread hvalue hlength (lacks_continuesNumeral_of_areBlank hafter hnumeral)
    obtain ⟨c, tail, hcons, hc, -⟩ := hvalue.exists_cons
    have hstart : Lacks isBlank (inner ++ (after ++ rest)) := by
      rw [hcons]
      exact lacks_cons hc
    unfold readItem afterBlanks
    rw [List.append_assoc]
    rw [List.append_assoc]
    rw [dropWhile_append hbefore hstart]
    rw [hnext]
    simp [dropWhile_append hafter hblank]

theorem IsMember.readMember_append {read : List Char → Option (Data × List Char)} {fuel : Nat}
    {text : List Char} {member : List CodePoint × Data} (h : IsMember text member) (hfuel : text.length ≤ fuel)
    (hread : ∀ {inner value}, IsValue inner value → inner.length ≤ text.length →
      ∀ {rest}, Lacks continuesNumeral rest → read (inner ++ rest) = some (value, rest))
    {rest : List Char} (hnumeral : Lacks continuesNumeral rest) (hblank : Lacks isBlank rest) :
    readMember read fuel (text ++ rest) = some (member, rest) := by
  cases h with
  | @mk before key middle item name value hbefore hkey hmiddle hitem =>
    simp only [List.length_append, List.length_cons] at hfuel hread
    have hnext : readItem read (item ++ rest) = some (value, rest) :=
      hitem.readItem_append (fun hvalue hle => hread hvalue (by omega)) hnumeral hblank
    have htext := hkey.readText_append (by omega : key.length ≤ fuel) (middle ++ ':' :: (item ++ rest))
    have hstart : Lacks isBlank (key ++ (middle ++ ':' :: (item ++ rest))) := by
      cases hkey
      exact lacks_cons rfl
    have hcolon : Lacks isBlank (':' :: (item ++ rest)) := lacks_cons rfl
    unfold readMember afterBlanks
    simp only [List.append_assoc, List.cons_append]
    rw [dropWhile_append hbefore hstart]
    rw [htext]
    simp [dropWhile_append hmiddle hcolon, hnext]

theorem IsSeparated.readSeparated_append {α : Type} {IsOne : List Char → α → Prop}
    {read : List Char → Option (α × List Char)} {close : Char} {bound : Nat}
    (hread : ∀ {text item}, IsOne text item → text.length ≤ bound → ∀ {c}, c = ',' ∨ c = close →
      ∀ rest, read (text ++ c :: rest) = some (item, c :: rest))
    (hclose : close ≠ ',') {text : List Char} {items : List α} (h : IsSeparated IsOne text items)
    (hbound : text.length ≤ bound) {fuel : Nat} (hfuel : text.length < fuel) (rest : List Char) :
    readSeparated read close fuel (text ++ close :: rest) = some (items, rest) := by
  induction h generalizing fuel with
  | one hitem =>
    obtain ⟨fuel, rfl⟩ := Nat.exists_eq_add_one.mpr (Nat.zero_lt_of_lt hfuel)
    rw [readSeparated]
    rw [hread hitem hbound (.inr rfl)]
    simp [hclose]
  | @cons text tail item items hitem _ ih =>
    obtain ⟨fuel, rfl⟩ := Nat.exists_eq_add_one.mpr (Nat.zero_lt_of_lt hfuel)
    simp only [List.length_append, List.length_cons] at hbound hfuel
    rw [List.append_assoc]
    rw [List.cons_append]
    rw [readSeparated]
    rw [hread hitem (by omega) (.inl rfl)]
    simp [@ih (by omega) fuel (by omega)]

theorem readSequence_areBlank {α : Type} (read : List Char → Option (α × List Char)) (close : Char)
    (hclose : isBlank close = false) (fuel : Nat) {blanks : List Char} (h : AreBlank blanks) (rest : List Char) :
    readSequence read close fuel (blanks ++ close :: rest) = some ([], rest) := by
  unfold readSequence afterBlanks
  rw [dropWhile_append h (lacks_cons hclose)]
  simp

theorem IsSeparated.exists_append {α : Type} {IsOne : List Char → α → Prop} {text : List Char} {items : List α}
    (h : IsSeparated IsOne text items) : ∃ first rest item, text = first ++ rest ∧ IsOne first item := by
  cases h with
  | one hitem => exact ⟨_, [], _, by simp, hitem⟩
  | cons hitem _ => exact ⟨_, _, _, rfl, hitem⟩

theorem IsSeparated.readSequence_append {α : Type} {IsOne : List Char → α → Prop}
    {read : List Char → Option (α × List Char)} {close : Char} (hclose : close ≠ ',') {text : List Char}
    {items : List α} (h : IsSeparated IsOne text items)
    (hstart : ∀ {one item}, IsOne one item → ∀ rest, (afterBlanks (one ++ rest)).head? ≠ some close)
    (hread : ∀ {one item}, IsOne one item → one.length ≤ text.length → ∀ {c}, c = ',' ∨ c = close →
      ∀ rest, read (one ++ c :: rest) = some (item, c :: rest))
    {fuel : Nat} (hfuel : text.length < fuel) (rest : List Char) :
    readSequence read close fuel (text ++ close :: rest) = some (items, rest) := by
  obtain ⟨first, tail, item, htext, hitem⟩ := h.exists_append
  have hhead := hstart hitem (tail ++ close :: rest)
  rw [← List.append_assoc] at hhead
  rw [← htext] at hhead
  unfold readSequence
  rw [if_neg hhead]
  exact h.readSeparated_append hread hclose le_rfl hfuel rest

theorem IsItem.head?_afterBlanks {text : List Char} {value : Data} (h : IsItem text value) (rest : List Char) :
    (afterBlanks (text ++ rest)).head? ≠ some ']' := by
  cases h with
  | @mk before inner after _ hbefore hvalue hafter =>
    obtain ⟨c, tail, rfl, hc, hne⟩ := hvalue.exists_cons
    unfold afterBlanks
    simp only [List.append_assoc, List.cons_append]
    rw [dropWhile_append hbefore (lacks_cons hc)]
    simpa using hne

theorem IsMember.head?_afterBlanks {text : List Char} {member : List CodePoint × Data} (h : IsMember text member)
    (rest : List Char) : (afterBlanks (text ++ rest)).head? ≠ some '\x7d' := by
  cases h with
  | mk hbefore hkey hmiddle hitem =>
    cases hkey
    unfold afterBlanks
    simp only [List.append_assoc, List.cons_append]
    rw [dropWhile_append hbefore (lacks_cons rfl)]
    simp

theorem IsValue.readValue_append {text : List Char} {value : Data} (h : IsValue text value) {fuel : Nat}
    (hfuel : text.length < fuel) {rest : List Char} (hrest : Lacks continuesNumeral rest) :
    readValue fuel (text ++ rest) = some (value, rest) := by
  induction fuel generalizing text value rest with
  | zero => omega
  | succ fuel ih =>
    cases h with
    | word hword =>
      simp only [words, List.mem_cons, Prod.mk.injEq, List.not_mem_nil, or_false] at hword
      rcases hword with ⟨rfl, rfl⟩ | ⟨rfl, rfl⟩ | ⟨rfl, rfl⟩ <;> simp [readValue, words, List.isPrefixOf]
    | number hn =>
      obtain ⟨c, tail, hcons, hc⟩ := exists_cons_text hn
      have hne : ∀ {other : Char}, (other.isDigit || other == '-') = false →
          (c :: tail ++ rest).head? ≠ some other := by
        intro other hother heq
        cases heq
        exact ne_of_isDigit_or hc hother rfl
      have hwords : words.find? (·.1.isPrefixOf (c :: tail ++ rest)) = none := by
        have hc : ∀ other : Char, (other.isDigit || other == '-') = false → other ≠ c := fun _ hother =>
          (ne_of_isDigit_or hc hother).symm
        simp [words, List.isPrefixOf, hc 'n' rfl, hc 't' rfl, hc 'f' rfl]
      have hread := readNumeral_append hn hrest
      rw [hcons] at hread ⊢
      rw [readValue]
      rw [if_neg (hne rfl)]
      rw [if_neg (hne rfl)]
      rw [if_neg (hne rfl)]
      rw [hwords]
      rw [hread]
      rfl
    | text htext =>
      have hread := htext.readText_append (Nat.lt_add_one_iff.mp hfuel) rest
      cases htext
      rw [readValue]
      rw [hread]
      simp
    | emptyList hblanks =>
      have hread := readSequence_areBlank (readItem (readValue fuel)) ']' rfl fuel hblanks rest
      simp [readValue, hread]
    | emptyObject hblanks =>
      have hread := readSequence_areBlank (readMember (readValue fuel) fuel) '\x7d' rfl fuel hblanks rest
      simp [readValue, hread]
    | @list text items hitems =>
      simp only [List.cons_append, List.length_cons, List.length_append] at hfuel
      have hread : readSequence (readItem (readValue fuel)) ']' fuel (text ++ ']' :: rest) = some (items, rest) := by
        apply hitems.readSequence_append (by decide) IsItem.head?_afterBlanks _ (by omega)
        intro one item hitem hle c hc rest
        apply hitem.readItem_append
        . intro inner hvalue hinner rest hrest
          exact ih hvalue (by omega) hrest
        . rcases hc with rfl | rfl <;> exact lacks_cons rfl
        . rcases hc with rfl | rfl <;> exact lacks_cons rfl
      simp [readValue, hread]
    | @object text members hmembers =>
      simp only [List.cons_append, List.length_cons, List.length_append] at hfuel
      have hread : readSequence (readMember (readValue fuel) fuel) '\x7d' fuel (text ++ '\x7d' :: rest) =
          some (members, rest) := by
        apply hmembers.readSequence_append (by decide) IsMember.head?_afterBlanks _ (by omega)
        intro one member hmember hle c hc rest
        apply hmember.readMember_append (by omega)
        . intro inner value hvalue hinner rest hrest
          exact ih hvalue (by omega) hrest
        . rcases hc with rfl | rfl <;> exact lacks_cons rfl
        . rcases hc with rfl | rfl <;> exact lacks_cons rfl
      simp [readValue, hread]

theorem IsItem.decode_eq {text : String} {value : Data} (h : IsItem text.toList value) :
    decode text = some value := by
  have hread : readItem (readValue (text.length + 1)) (text.toList ++ []) = some (value, []) := by
    apply h.readItem_append
    . intro inner hvalue hle rest hrest
      rw [String.length_toList] at hle
      exact hvalue.readValue_append (by omega) hrest
    . simp [Lacks]
    . simp [Lacks]
  rw [List.append_nil] at hread
  simp [decode, hread]

end Values

section Soundness

def IsSound {α : Type} (read : List Char → Option (α × List Char)) (IsOne : List Char → α → Prop) : Prop :=
  ∀ {input item rest}, read input = some (item, rest) → ∃ text, input = text ++ rest ∧ IsOne text item

theorem cons_tail_of_head? {text : List Char} {c : Char} (h : text.head? = some c) : text = c :: text.tail := by
  cases text with
  | nil => cases h
  | cons => simpa using h

theorem areBlank_takeWhile (text : List Char) : AreBlank (text.takeWhile isBlank) := fun _ hc =>
  List.mem_takeWhile_imp hc

theorem takeWhile_append_afterBlanks (text : List Char) : text.takeWhile isBlank ++ afterBlanks text = text :=
  List.takeWhile_append_dropWhile

theorem readHex_sound {input rest : List Char} {point : CodePoint} (h : readHex input = some (point, rest)) :
    ∃ unit, '\\' :: 'u' :: input = unit ++ rest ∧ IsUnit unit point := by
  unfold readHex at h
  split at h
  . next a b c d tail =>
    simp only [Option.bind_eq_bind, Option.pure_def, Option.bind_eq_some_iff, Option.some.injEq, Prod.mk.injEq] at h
    obtain ⟨w, hw, x, hx, y, hy, z, hz, rfl, rfl⟩ := h
    exact ⟨_, rfl, .hex hw hx hy hz⟩
  . cases h

theorem isSound_readUnit : IsSound readUnit IsUnit := by
  intro input point rest h
  cases input with
  | nil => cases h
  | cons c tail =>
    rw [readUnit] at h
    split at h
    . next hescape =>
      subst hescape
      split at h
      . next hu =>
        rw [cons_tail_of_head? hu]
        exact readHex_sound h
      . simp only [Option.map_eq_some_iff, Prod.mk.injEq] at h
        obtain ⟨point, hlookup, rfl, rfl⟩ := h
        cases tail with
        | nil => cases hlookup
        | cons c tail =>
          obtain ⟨before, after, hescapes, -⟩ := List.lookup_eq_some_iff.mp hlookup
          exact ⟨['\\', c], rfl, .short (by rw [hescapes]; simp)⟩
    . next hescape =>
      split at h
      . cases h
      . next hquote =>
        split at h
        . cases h
        . next hlow =>
          cases h
          exact ⟨[c], rfl, .plain (not_lt.mp hlow) hquote hescape⟩

theorem readContent_sound {fuel : Nat} {input rest : List Char} {points : List CodePoint}
    (h : readContent fuel input = some (points, rest)) :
    ∃ content, input = content ++ '"' :: rest ∧ IsContent content points := by
  induction fuel generalizing input points with
  | zero => cases h
  | succ fuel ih =>
    rw [readContent] at h
    split at h
    . next hquote =>
      cases h
      exact ⟨[], cons_tail_of_head? hquote, .nil⟩
    . simp only [Option.bind_eq_some_iff, Option.map_eq_some_iff, Prod.mk.injEq, Prod.exists] at h
      obtain ⟨point, tail, hread, points, rest, htail, rfl, rfl⟩ := h
      obtain ⟨unit, rfl, hunit⟩ := isSound_readUnit hread
      obtain ⟨content, rfl, hcontent⟩ := ih htail
      exact ⟨unit ++ content, by simp, .cons hunit hcontent⟩

theorem isSound_readText (fuel : Nat) : IsSound (readText fuel) IsText := by
  intro input value rest h
  unfold readText at h
  split at h
  . next hquote =>
    simp only [Option.map_eq_some_iff, Prod.mk.injEq, Prod.exists] at h
    obtain ⟨points, rest, hcontent, rfl, rfl⟩ := h
    obtain ⟨content, htail, hcontent⟩ := readContent_sound hcontent
    refine ⟨'"' :: content ++ ['"'], ?_, .mk hcontent⟩
    rw [cons_tail_of_head? hquote]
    simp [htail]
  . cases h

theorem readFraction_sound {input fraction rest : List Char} (h : readFraction input = some (fraction, rest)) :
    input = (if fraction = [] then [] else '.' :: fraction) ++ rest ∧ ∀ c ∈ fraction, c.isDigit = true := by
  unfold readFraction at h
  split at h
  . next hpoint =>
    dsimp only at h
    split at h
    . cases h
    . next hne =>
      cases h
      rw [if_neg hne]
      refine ⟨?_, fun c hc => List.mem_takeWhile_imp hc⟩
      rw [List.cons_append]
      rw [List.takeWhile_append_dropWhile]
      exact cons_tail_of_head? hpoint
  . cases h
    simp

theorem readExponent_sound {input rest : List Char} {exponent : Option (List Char × List Char)}
    (h : readExponent input = some (exponent, rest)) :
    input = (exponent.elim [] fun part => part.1 ++ part.2) ++ rest ∧
      ∀ part ∈ exponent, part.1 ∈ Numeral.marks ∧ part.2 ≠ [] ∧ ∀ c ∈ part.2, c.isDigit = true := by
  unfold readExponent at h
  split at h
  . cases h
    simp
  . next mark hmark =>
    dsimp only at h
    split at h
    . cases h
    . next hne =>
      cases h
      have hfound := List.find?_some hmark
      obtain ⟨tail, rfl⟩ := List.isPrefixOf_iff_prefix.mp hfound
      simp only [List.drop_left] at hne ⊢
      refine ⟨?_, ?_⟩
      . simp
      . intro part hpart
        cases hpart
        exact ⟨List.mem_of_find?_eq_some hmark, hne, fun c hc => List.mem_takeWhile_imp hc⟩

theorem readUnsigned_sound {negative : Bool} {input rest : List Char} {n : Numeral}
    (h : readUnsigned negative input = some (n, rest)) :
    input = n.unsignedText ++ rest ∧ n.negative = negative ∧ n.IsWellFormed := by
  unfold readUnsigned at h
  dsimp only at h
  split at h
  . cases h
  . next hwhole =>
    simp only [Option.bind_eq_some_iff, Option.map_eq_some_iff, Prod.mk.injEq, Prod.exists] at h
    obtain ⟨fraction, tail, hfraction, exponent, rest, hexponent, rfl, rfl⟩ := h
    obtain ⟨htail, hdigits⟩ := readFraction_sound hfraction
    obtain ⟨rfl, hparts⟩ := readExponent_sound hexponent
    refine ⟨?_, rfl, ?_, ?_, ?_, hdigits, hparts⟩
    . unfold Numeral.unsignedText Numeral.fractionText Numeral.exponentText
      dsimp only
      rw [List.append_assoc]
      rw [List.append_assoc]
      rw [← htail]
      exact List.takeWhile_append_dropWhile.symm
    . exact fun hnil => hwhole (.inl hnil)
    . intro hzero
      by_contra hne
      exact hwhole (.inr ⟨hzero, hne⟩)
    . exact fun c hc => List.mem_takeWhile_imp hc

theorem readNumeral_sound {input rest : List Char} {n : Numeral} (h : readNumeral input = some (n, rest)) :
    input = n.text ++ rest ∧ n.IsWellFormed := by
  unfold readNumeral at h
  unfold Numeral.text
  split at h
  . next hsign =>
    obtain ⟨hinput, hnegative, hn⟩ := readUnsigned_sound h
    refine ⟨?_, hn⟩
    rw [cons_tail_of_head? hsign]
    rw [hinput]
    simp [hnegative]
  . obtain ⟨hinput, hnegative, hn⟩ := readUnsigned_sound h
    refine ⟨?_, hn⟩
    rw [hinput]
    simp [hnegative]

variable {read : List Char → Option (Data × List Char)} (hread : IsSound read IsValue)

include hread

theorem isSound_readItem : IsSound (readItem read) IsItem := by
  intro input value rest h
  simp only [readItem, Option.map_eq_some_iff, Prod.mk.injEq, Prod.exists] at h
  obtain ⟨value, tail, hvalue, rfl, rfl⟩ := h
  obtain ⟨text, htext, hvalue⟩ := hread hvalue
  refine ⟨input.takeWhile isBlank ++ text ++ tail.takeWhile isBlank, ?_,
    .mk (areBlank_takeWhile input) hvalue (areBlank_takeWhile tail)⟩
  rw [List.append_assoc]
  rw [takeWhile_append_afterBlanks]
  rw [List.append_assoc]
  rw [← htext]
  rw [takeWhile_append_afterBlanks]

theorem isSound_readMember (fuel : Nat) : IsSound (readMember read fuel) IsMember := by
  intro input member rest h
  simp only [readMember, Option.bind_eq_some_iff, Prod.exists] at h
  obtain ⟨name, tail, hkey, h⟩ := h
  split at h
  . next hcolon =>
    simp only [Option.map_eq_some_iff, Prod.mk.injEq, Prod.exists] at h
    obtain ⟨value, rest, hitem, rfl, rfl⟩ := h
    obtain ⟨key, hafter, hkey⟩ := isSound_readText fuel hkey
    obtain ⟨item, htail, hitem⟩ := isSound_readItem hread hitem
    refine ⟨input.takeWhile isBlank ++ key ++ tail.takeWhile isBlank ++ ':' :: item, ?_,
      .mk (areBlank_takeWhile input) hkey (areBlank_takeWhile tail) hitem⟩
    calc
      input = input.takeWhile isBlank ++ afterBlanks input := (takeWhile_append_afterBlanks input).symm
      _ = input.takeWhile isBlank ++ (key ++ (tail.takeWhile isBlank ++ afterBlanks tail)) := by
        rw [hafter]
        rw [takeWhile_append_afterBlanks]
      _ = input.takeWhile isBlank ++ key ++ tail.takeWhile isBlank ++ ':' :: item ++ rest := by
        rw [cons_tail_of_head? hcolon]
        rw [htail]
        simp
  . cases h

omit hread

theorem readSeparated_sound {α : Type} {IsOne : List Char → α → Prop} {read : List Char → Option (α × List Char)}
    (hread : IsSound read IsOne) {close : Char} {fuel : Nat} {input rest : List Char} {items : List α}
    (h : readSeparated read close fuel input = some (items, rest)) :
    ∃ text, input = text ++ close :: rest ∧ IsSeparated IsOne text items := by
  induction fuel generalizing input items with
  | zero => cases h
  | succ fuel ih =>
    simp only [readSeparated, Option.bind_eq_some_iff, Prod.exists] at h
    obtain ⟨item, tail, hfirst, h⟩ := h
    obtain ⟨text, rfl, hitem⟩ := hread hfirst
    split at h
    . next hcomma =>
      simp only [Option.map_eq_some_iff, Prod.mk.injEq, Prod.exists] at h
      obtain ⟨items, rest, hitems, rfl, rfl⟩ := h
      obtain ⟨others, hothers, hitems⟩ := ih hitems
      refine ⟨text ++ ',' :: others, ?_, .cons hitem hitems⟩
      rw [cons_tail_of_head? hcomma]
      rw [hothers]
      simp
    . split at h
      . next hclose =>
        cases h
        refine ⟨text, ?_, .one hitem⟩
        rw [← cons_tail_of_head? hclose]
      . cases h

theorem readSequence_sound {α : Type} {IsOne : List Char → α → Prop} {read : List Char → Option (α × List Char)}
    (hread : IsSound read IsOne) {close : Char} {fuel : Nat} {input rest : List Char} {items : List α}
    (h : readSequence read close fuel input = some (items, rest)) :
    ∃ text, input = text ++ close :: rest ∧ (AreBlank text ∧ items = [] ∨ IsSeparated IsOne text items) := by
  unfold readSequence at h
  split at h
  . next hclose =>
    cases h
    refine ⟨input.takeWhile isBlank, ?_, .inl ⟨areBlank_takeWhile input, rfl⟩⟩
    rw [← cons_tail_of_head? hclose]
    exact (takeWhile_append_afterBlanks input).symm
  . obtain ⟨text, hinput, hitems⟩ := readSeparated_sound hread h
    exact ⟨text, hinput, .inr hitems⟩

theorem isSound_readValue (fuel : Nat) : IsSound (readValue fuel) IsValue := by
  induction fuel with
  | zero =>
    intro input value rest h
    cases h
  | succ fuel ih =>
    intro input value rest h
    rw [readValue] at h
    split at h
    . simp only [Option.map_eq_some_iff, Prod.mk.injEq, Prod.exists] at h
      obtain ⟨value, rest, htext, rfl, rfl⟩ := h
      obtain ⟨text, hinput, htext⟩ := isSound_readText fuel htext
      exact ⟨text, hinput, .text htext⟩
    split at h
    . next hopen =>
      simp only [Option.map_eq_some_iff, Prod.mk.injEq, Prod.exists] at h
      obtain ⟨items, rest, hitems, rfl, rfl⟩ := h
      obtain ⟨text, htail, hitems⟩ := readSequence_sound (isSound_readItem ih) hitems
      refine ⟨'[' :: text ++ [']'], ?_, ?_⟩
      . rw [cons_tail_of_head? hopen]
        rw [htail]
        simp
      . rcases hitems with ⟨hblank, rfl⟩ | hitems
        . exact .emptyList hblank
        . exact .list hitems
    split at h
    . next hopen =>
      simp only [Option.map_eq_some_iff, Prod.mk.injEq, Prod.exists] at h
      obtain ⟨members, rest, hmembers, rfl, rfl⟩ := h
      obtain ⟨text, htail, hmembers⟩ := readSequence_sound (isSound_readMember ih fuel) hmembers
      refine ⟨'\x7b' :: text ++ ['\x7d'], ?_, ?_⟩
      . rw [cons_tail_of_head? hopen]
        rw [htail]
        simp
      . rcases hmembers with ⟨hblank, rfl⟩ | hmembers
        . exact .emptyObject hblank
        . exact .object hmembers
    split at h
    . next word hword =>
      cases h
      have hfound := List.find?_some hword
      refine ⟨word.1, ?_, .word (List.mem_of_find?_eq_some hword)⟩
      exact (List.prefix_iff_eq_append.mp (List.isPrefixOf_iff_prefix.mp hfound)).symm
    . simp only [Option.map_eq_some_iff, Prod.mk.injEq, Prod.exists] at h
      obtain ⟨n, rest, hnumeral, rfl, rfl⟩ := h
      obtain ⟨hinput, hn⟩ := readNumeral_sound hnumeral
      exact ⟨n.text, hinput, .number hn⟩

theorem decode_eq_some_iff {text : String} {value : Data} : decode text = some value ↔ IsItem text.toList value := by
  constructor
  . intro h
    simp only [decode, Option.bind_eq_some_iff, Prod.exists] at h
    obtain ⟨item, rest, hitem, h⟩ := h
    split at h
    . next hrest =>
      cases h
      obtain ⟨inner, htext, hitem⟩ := isSound_readItem (isSound_readValue _) hitem
      rw [htext]
      rw [hrest]
      rw [List.append_nil]
      exact hitem
    . cases h
  . exact IsItem.decode_eq

example : decode "[1.5, \"\\ud83d\\ude00\"]" =
    some (.list [.number (.finite false 6755399441055744 (-52)), .text [0x1F600]]) := by
  rfl

end Soundness

end Json

end ParadigmScan
