import ParadigmScan.Proofs.Toml.Readers

/-!
This module contains what the readers of numbers, dates and times take from a document: characters from its front,
and for an integer with too many digits exactly these digits.
-/

namespace ParadigmScan

namespace Toml

theorem fixed?_suffix {count low high n : Nat} {text rest : List Char}
    (h : fixed? count low high text = some (n, rest)) : rest <:+ text := by
  unfold fixed? at h
  simp only at h
  split at h
  . split at h
    . simp only [Option.some.injEq, Prod.mk.injEq] at h
      rw [← h.2]
      apply List.drop_suffix
    . simp at h
  . simp at h

theorem char?_suffix {p : Char → Bool} {text rest : List Char} (h : char? p text = some rest) :
    rest <:+ text := by
  unfold char? at h
  split at h
  . split at h
    . simp only [Option.some.injEq] at h
      rw [← h]
      apply List.suffix_cons
    . simp at h
  . simp at h

theorem time?_suffix {time : Time} {text rest : List Char} (h : time? text = some (time, rest)) :
    rest <:+ text := by
  unfold time? at h
  simp only [Option.bind_eq_bind, Option.bind_eq_some_iff, Option.pure_def, Option.some.injEq,
    Prod.mk.injEq, Prod.exists] at h
  obtain ⟨hour, text1, h1, text2, h2, minute, text3, h3, text4, h4, second, text5, h5, -, hrest⟩ := h
  have hsuffix : text5 <:+ text :=
    (fixed?_suffix h5).trans <| (char?_suffix h4).trans <| (fixed?_suffix h3).trans <|
      (char?_suffix h2).trans (fixed?_suffix h1)
  have hdrop : ∀ digits : List Char,
      (if digits.isEmpty then text5 else text5.drop (1 + digits.length)) <:+ text := by
    intro digits
    split
    . exact hsuffix
    . exact (List.drop_suffix _ _).trans hsuffix
  rw [← hrest]
  apply hdrop

theorem offset?_suffix {minutes : Int} {text rest : List Char}
    (h : offset? text = some (minutes, rest)) : rest <:+ text := by
  unfold offset? at h
  split at h
  . split at h
    . simp only [Option.some.injEq, Prod.mk.injEq] at h
      rw [← h.2]
      apply List.suffix_cons
    . split at h
      . simp only [Option.bind_eq_bind, Option.bind_eq_some_iff, Option.pure_def, Option.some.injEq,
          Prod.mk.injEq, Prod.exists] at h
        obtain ⟨hours, text1, h1, text2, h2, minutes, text3, h3, -, rfl⟩ := h
        exact (fixed?_suffix h3).trans <| (char?_suffix h2).trans <| (fixed?_suffix h1).trans
          (List.suffix_cons _ _)
      . simp at h
  . simp at h

theorem date?_suffix {value : Option Value} {text rest : List Char}
    (h : date? text = some (value, rest)) : rest <:+ text := by
  unfold date? at h
  simp only [Option.bind_eq_bind, Option.bind_eq_some_iff, Prod.exists] at h
  obtain ⟨year, text1, h1, text2, h2, month, text3, h3, text4, h4, day, text5, h5, h⟩ := h
  have hsuffix : text5 <:+ text :=
    (fixed?_suffix h5).trans <| (char?_suffix h4).trans <| (fixed?_suffix h3).trans <|
      (char?_suffix h2).trans (fixed?_suffix h1)
  split at h
  . simp only [Option.pure_def, Option.some.injEq, Prod.mk.injEq] at h
    rw [← h.2]
    exact hsuffix
  . next time text6 htimed =>
    obtain ⟨text', h6, h7⟩ := Option.bind_eq_some_iff.mp htimed
    have htime : text6 <:+ text := (time?_suffix h7).trans <| (char?_suffix h6).trans hsuffix
    simp only [Option.pure_def, Option.some.injEq, Prod.mk.injEq] at h
    rw [← h.2]
    split
    . next hoffset => exact (offset?_suffix hoffset).trans htime
    . exact htime

theorem sign_suffix (text : List Char) : (sign text).2 <:+ text := by
  unfold sign
  split
  . apply List.suffix_cons
  . apply List.suffix_cons
  . apply List.suffix_rfl

theorem digits?_go_eq {isDigit : Char → Bool} (hunderscore : isDigit '_' = false)
    (text read : List Char) :
    ∃ literal, text = literal ++ (digits?.go isDigit text read).2 ∧
      (∀ c ∈ literal, isDigit c = true ∨ c = '_') ∧
      (digits?.go isDigit text read).1.length = read.length + literal.countP isDigit := by
  fun_induction digits?.go isDigit text read with
  | case1 c rest read hc ih =>
    obtain ⟨literal, hrest, hchars, hlength⟩ := ih
    refine ⟨'_' :: c :: literal, ?_, ?_, ?_⟩
    . rw [List.cons_append]
      rw [List.cons_append]
      rw [← hrest]
    . simpa [hc] using hchars
    . rw [hlength]
      simp [hc, hunderscore]
      omega
  | case2 c rest read hc => exact ⟨[], by simp⟩
  | case3 c rest read hne hc ih =>
    obtain ⟨literal, hrest, hchars, hlength⟩ := ih
    refine ⟨c :: literal, ?_, ?_, ?_⟩
    . rw [List.cons_append]
      rw [← hrest]
    . simpa [hc] using hchars
    . rw [hlength]
      simp [hc]
      omega
  | case4 c rest read hne hc => exact ⟨[], by simp⟩
  | case5 read => exact ⟨[], by simp⟩

theorem digits?_eq_some {isDigit : Char → Bool} (hunderscore : isDigit '_' = false)
    {text digits rest : List Char} (h : digits? isDigit text = some (digits, rest)) :
    ∃ literal, text = literal ++ rest ∧ (∀ c ∈ literal, isDigit c = true ∨ c = '_') ∧
      digits.length = literal.countP isDigit := by
  unfold digits? at h
  split at h
  . simp at h
  . next c text =>
    split at h
    . next hc =>
      obtain ⟨literal, htext, hchars, hlength⟩ := digits?_go_eq hunderscore text [c]
      simp only [Option.some.injEq] at h
      rw [h] at htext hlength
      refine ⟨c :: literal, ?_, ?_, ?_⟩
      . rw [List.cons_append]
        rw [← htext]
      . simpa [hc] using hchars
      . rw [hlength]
        simp [hc]
        omega
    . simp at h

theorem digits?_suffix {isDigit : Char → Bool} (hunderscore : isDigit '_' = false)
    {text digits rest : List Char} (h : digits? isDigit text = some (digits, rest)) :
    rest <:+ text := by
  obtain ⟨literal, rfl, -⟩ := digits?_eq_some hunderscore h
  apply List.suffix_append

theorem basedInteger?_suffix {value : Value} {text rest : List Char}
    (h : basedInteger? text = some (value, rest)) : rest <:+ text := by
  have hread : ∀ {base isDigit text}, isDigit '_' = false →
      basedInteger?.read base isDigit text = some (value, rest) → rest <:+ text := by
    intro base isDigit text hunderscore h
    unfold basedInteger?.read at h
    simp only [Option.bind_eq_bind, Option.bind_eq_some_iff, Option.pure_def, Option.some.injEq,
      Prod.mk.injEq, Prod.exists] at h
    obtain ⟨digits, rest', hdigits, -, rfl⟩ := h
    exact digits?_suffix hunderscore hdigits
  have hskip : ∀ (a b : Char) {text : List Char}, rest <:+ text → rest <:+ a :: b :: text :=
    fun a b {text} h => h.trans <| (List.suffix_cons b text).trans (List.suffix_cons a _)
  unfold basedInteger? at h
  split at h
  . exact hskip _ _ (hread (by decide) h)
  . exact hskip _ _ (hread (by decide) h)
  . exact hskip _ _ (hread (by decide) h)
  . simp at h

theorem wholePart?_eq_some {text digits rest : List Char}
    (h : wholePart? text = some (digits, rest)) :
    ∃ literal, text = literal ++ rest ∧ (∀ c ∈ literal, c.isDigit = true ∨ c = '_') ∧
      digits.length = literal.countP Char.isDigit := by
  unfold wholePart? at h
  split at h
  . simp only [Option.some.injEq, Prod.mk.injEq] at h
    obtain ⟨rfl, rfl⟩ := h
    exact ⟨['0'], by simp, by simp, by decide⟩
  . exact digits?_eq_some (by decide) h

theorem fractionPart_suffix (text : List Char) : (fractionPart text).2 <:+ text := by
  unfold fractionPart
  split
  . next rest =>
    cases hdigits : digits? Char.isDigit rest with
    | none => apply List.suffix_rfl
    | some found => exact (digits?_suffix (by decide) hdigits).trans (List.suffix_cons _ _)
  . apply List.suffix_rfl

theorem exponentPart_suffix (text : List Char) : (exponentPart text).2 <:+ text := by
  unfold exponentPart
  split
  . apply List.suffix_rfl
  . next e text =>
    split
    . simp only
      split
      . apply List.suffix_rfl
      . next hdigits =>
        exact (digits?_suffix (by decide) hdigits).trans <| (sign_suffix text).trans
          (List.suffix_cons e text)
    . apply List.suffix_rfl

theorem decimalNumber?_eq_some {value : Except Error Value} {text rest : List Char}
    (h : decimalNumber? text = some (value, rest)) :
    rest <:+ text ∧ ∀ error, value = .error error →
      ∃ digits, error = .longInteger digits ∧ HoldsInteger digits text := by
  unfold decimalNumber? at h
  simp only [Option.bind_eq_bind, Option.bind_eq_some_iff, Prod.exists] at h
  obtain ⟨whole, rest1, hwhole, h⟩ := h
  obtain ⟨literal, hliteral, hchars, hlength⟩ := wholePart?_eq_some hwhole
  have hrest1 : rest1 <:+ text :=
    (hliteral ▸ List.suffix_append literal rest1 : rest1 <:+ (sign text).2).trans (sign_suffix text)
  have hrest : (exponentPart (fractionPart rest1).2).2 <:+ text :=
    (exponentPart_suffix _).trans <| (fractionPart_suffix _).trans hrest1
  split at h
  . split at h
    . next hlarge =>
      simp only [Option.pure_def, Option.some.injEq, Prod.mk.injEq] at h
      obtain ⟨rfl, rfl⟩ := h
      refine ⟨hrest, ?_⟩
      intro error herror
      simp only [Except.error.injEq] at herror
      refine ⟨whole.length, herror.symm, hlarge, literal, ?_, hchars, hlength.symm⟩
      have hinfix' : literal <:+: (sign text).2 := hliteral ▸ List.infix_append' [] literal rest1
      exact hinfix'.trans (sign_suffix text).isInfix
    . simp only [Option.pure_def, Option.some.injEq, Prod.mk.injEq] at h
      obtain ⟨rfl, rfl⟩ := h
      exact ⟨hrest, by simp⟩
  . simp only [Option.pure_def, Option.some.injEq, Prod.mk.injEq] at h
    obtain ⟨rfl, rfl⟩ := h
    exact ⟨hrest, by simp⟩

theorem specialNumber?_suffix {value : Value} {text rest : List Char}
    (h : specialNumber? text = some (value, rest)) : rest <:+ text := by
  unfold specialNumber? at h
  simp only at h
  split at h
  . simp only [Option.some.injEq, Prod.mk.injEq] at h
    rw [← h.2]
    exact (List.drop_suffix _ _).trans (sign_suffix text)
  . split at h
    . simp only [Option.some.injEq, Prod.mk.injEq] at h
      rw [← h.2]
      exact (List.drop_suffix _ _).trans (sign_suffix text)
    . simp at h

theorem reads_scalar (rest : List Char) : Reads scalar rest fun _ => True := by
  unfold scalar
  apply reads_get_bind
  split
  . next hdate =>
    split
    . apply reads_bind (reads_set (date?_suffix hdate))
      intro _ rest _
      exact reads_pure trivial
    . apply reads_fail
  split
  . next htime =>
    apply reads_bind (reads_set (time?_suffix htime))
    intro _ rest _
    exact reads_pure trivial
  split
  . next hbased =>
    apply reads_bind (reads_set (basedInteger?_suffix hbased))
    intro _ rest _
    exact reads_pure trivial
  split
  . next value rest' hdecimal =>
    obtain ⟨hsuffix, hlong⟩ := decimalNumber?_eq_some hdecimal
    cases value with
    | ok value =>
      apply reads_bind (reads_set hsuffix)
      intro _ rest _
      exact reads_pure trivial
    | error error =>
      obtain ⟨digits, rfl, hholds⟩ := hlong error rfl
      exact hholds
  split
  . next hspecial =>
    apply reads_bind (reads_set (specialNumber?_suffix hspecial))
    intro _ rest _
    exact reads_pure trivial
  . apply reads_fail

end Toml

end ParadigmScan
