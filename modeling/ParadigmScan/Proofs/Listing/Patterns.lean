import ParadigmScan.Listing

/-!
This module contains what it means for a path to be excluded: it contains a pattern that is not empty. A
pattern without a slash can only be contained in one of the names of the path.
-/

namespace ParadigmScan

theorem containsText_iff {part text : List Char} : containsText part text = true ↔ part <:+: text := by
  induction text with
  | nil => simp [containsText]
  | cons c text ih =>
    rw [containsText]
    rw [Bool.or_eq_true]
    rw [List.isPrefixOf_iff_prefix]
    rw [ih]
    rw [List.infix_cons_iff]

theorem isExcluded_iff {patterns : List String} {path : String} :
    isExcluded patterns path = true ↔
      ∃ pattern ∈ patterns, pattern ≠ "" ∧ pattern.toList <:+: path.toList := by
  simp [isExcluded, containsText_iff]

theorem isExcluded_eq_false_iff {patterns : List String} {path : String} :
    isExcluded patterns path = false ↔
      ∀ pattern ∈ patterns, pattern ≠ "" → ¬ pattern.toList <:+: path.toList := by
  rw [Bool.eq_false_iff]
  rw [ne_eq]
  rw [isExcluded_iff]
  simp

theorem infix_append_cons_iff {part left right : List Char} {c : Char} (hc : c ∉ part) :
    part <:+: left ++ c :: right ↔ part <:+: left ∨ part <:+: right := by
  constructor
  . rintro ⟨before, behind, heq⟩
    rw [List.append_assoc] at heq
    rcases List.append_eq_append_iff.mp heq with ⟨rest, rfl, hrest⟩ | ⟨rest, rfl, hrest⟩
    . left
      rcases List.append_eq_append_iff.mp hrest with ⟨rest', rfl, -⟩ | ⟨rest', rfl, hrest'⟩
      . exact ⟨before, rest', by simp⟩
      . cases rest' with
        | nil => exact ⟨before, [], by simp⟩
        | cons d rest' =>
          simp only [List.cons_append, List.cons.injEq] at hrest'
          simp [hrest'.1] at hc
    . cases rest with
      | nil =>
        cases part with
        | nil => simp
        | cons d part =>
          simp only [List.nil_append, List.cons_append, List.cons.injEq] at hrest
          simp [hrest.1] at hc
      | cons d rest =>
        simp only [List.cons_append, List.cons.injEq] at hrest
        right
        exact ⟨rest, behind, by simp [hrest.2]⟩
  . rintro (h | h)
    . exact h.trans (List.infix_append' [] left (c :: right))
    . exact h.trans ⟨left ++ [c], [], by simp⟩

namespace Listing

theorem relativeText_prefix_append (names more : List String) :
    (relativeText names).toList <+: (relativeText (names ++ more)).toList := by
  unfold relativeText
  by_cases hnames : names = []
  . simp [hnames]
  . by_cases hmore : more = []
    . simp [hmore]
    . rw [String.intercalate_append_of_ne_nil hnames hmore]
      rw [String.append_assoc]
      rw [String.toList_append]
      apply List.prefix_append

theorem isExcluded_relativeText_append {patterns : List String} {names more : List String}
    (h : isExcluded patterns (relativeText (names ++ more)) = false) :
    isExcluded patterns (relativeText names) = false := by
  rw [isExcluded_eq_false_iff] at h ⊢
  intro pattern hpattern hne hcontained
  exact h pattern hpattern hne (hcontained.trans (relativeText_prefix_append names more).isInfix)

theorem infix_relativeText_iff {part : List Char} (hne : part ≠ []) (hslash : '/' ∉ part)
    (names : List String) :
    part <:+: (relativeText names).toList ↔ ∃ name ∈ names, part <:+: name.toList := by
  unfold relativeText
  induction names with
  | nil => simp [hne]
  | cons name names ih =>
    cases names with
    | nil => simp
    | cons next names =>
      rw [String.intercalate_cons_cons]
      have : (name ++ "/" ++ "/".intercalate (next :: names)).toList =
          name.toList ++ '/' :: ("/".intercalate (next :: names)).toList := by simp
      rw [this]
      rw [infix_append_cons_iff hslash]
      rw [ih]
      simp

theorem isExcluded_relativeText_iff {patterns : List String}
    (hslash : ∀ pattern ∈ patterns, '/' ∉ pattern.toList) (names : List String) :
    isExcluded patterns (relativeText names) = true ↔
      ∃ name ∈ names, isExcluded patterns name = true := by
  simp only [isExcluded_iff]
  constructor
  . rintro ⟨pattern, hpattern, hne, hcontained⟩
    rw [infix_relativeText_iff (by simpa using hne) (hslash pattern hpattern)] at hcontained
    obtain ⟨name, hname, hcontained⟩ := hcontained
    exact ⟨name, hname, pattern, hpattern, hne, hcontained⟩
  . rintro ⟨name, hname, pattern, hpattern, hne, hcontained⟩
    refine ⟨pattern, hpattern, hne, ?_⟩
    rw [infix_relativeText_iff (by simpa using hne) (hslash pattern hpattern)]
    exact ⟨name, hname, hcontained⟩

end Listing

end ParadigmScan
