import Mathlib.Data.Char
import Mathlib.Data.List.Basic
import Mathlib.Data.List.SplitOn
import ParadigmScan.FileTree.Resolve

/-!
This module contains the names that paths are made of. A path that is put together from proper names leads
along exactly these names, whatever it looks like as a text.
-/

namespace ParadigmScan

namespace Path

structure IsStep (name : String) : Prop where
  ne_empty : name ≠ ""
  ne_dot : name ≠ "."
  slash_notMem : '/' ∉ name.toList

theorem slash_notMem_of_mem_splitOn {chars part : List Char} (h : part ∈ chars.splitOn '/') :
    '/' ∉ part := by
  induction chars generalizing part with
  | nil => simp_all
  | cons c chars ih =>
    rw [List.splitOn_cons_eq_if_modifyHead] at h
    split at h
    . cases List.mem_cons.mp h with
      | inl heq => simp [heq]
      | inr hmem => exact ih hmem
    . next hc =>
      cases hsplit : chars.splitOn '/' with
      | nil => simp at hsplit
      | cons head rest =>
        rw [hsplit] at h ih
        simp only [List.modifyHead_cons, List.mem_cons] at h ih
        cases h with
        | inl heq =>
          have := ih (Or.inl rfl)
          simp_all
          intro hslash
          exact hc hslash.symm
        | inr hmem => exact ih (Or.inr hmem)

theorem isStep_of_mem_namesOf {text name : String} (h : name ∈ namesOf text) : IsStep name := by
  simp only [namesOf, parts, List.mem_filter, List.mem_map, Bool.and_eq_true, bne_iff_ne] at h
  obtain ⟨⟨part, hpart, rfl⟩, hempty, hdot⟩ := h
  refine ⟨hempty, hdot, ?_⟩
  rw [String.toList_ofList]
  exact slash_notMem_of_mem_splitOn hpart

theorem map_splitOn_intercalate {c : Char} {comma : String} (hcomma : comma.toList = [c])
    {texts : List String} (hne : texts ≠ []) (h : ∀ text ∈ texts, c ∉ text.toList) :
    ((comma.intercalate texts).toList.splitOn c).map String.ofList = texts := by
  rw [String.toList_intercalate]
  rw [hcomma]
  rw [List.splitOn_intercalate]
  . simp
  . simpa using h
  . simpa using hne

theorem parts_intercalate {names : List String} (hne : names ≠ [])
    (h : ∀ name ∈ names, '/' ∉ name.toList) : parts ("/".intercalate names) = names :=
  map_splitOn_intercalate (by decide) hne h

theorem parts_slash_append (text : String) : parts ("/" ++ text) = "" :: parts text := by
  simp [parts, List.splitOn_cons_eq_if_modifyHead]

theorem parts_anchor_append (anchor : Anchor) {names : List String} (hne : names ≠ [])
    (h : ∀ name ∈ names, IsStep name) :
    ∃ count, parts (anchor.text ++ "/".intercalate names) = List.replicate count "" ++ names := by
  have hparts := parts_intercalate hne fun name hname => (h name hname).slash_notMem
  cases anchor with
  | here =>
    simp only [Anchor.text]
    rw [String.empty_append]
    exact ⟨0, hparts⟩
  | root =>
    simp only [Anchor.text]
    rw [parts_slash_append]
    rw [hparts]
    exact ⟨1, rfl⟩
  | doubleRoot =>
    have : "//" = "/" ++ "/" := by decide
    simp only [Anchor.text]
    rw [this]
    rw [String.append_assoc]
    rw [parts_slash_append]
    rw [parts_slash_append]
    rw [hparts]
    exact ⟨2, rfl⟩

theorem exists_intercalate_eq_cons {name : String} {names : List String} (h : IsStep name) :
    ∃ c rest, c ≠ '/' ∧ ("/".intercalate (name :: names)).toList = c :: rest := by
  have hhead : ∃ rest, ("/".intercalate (name :: names)).toList = name.toList ++ rest := by
    cases names with
    | nil => exact ⟨[], by simp⟩
    | cons =>
      rw [String.intercalate_cons_cons]
      rw [String.append_assoc]
      rw [String.toList_append]
      exact ⟨_, rfl⟩
  obtain ⟨rest, hrest⟩ := hhead
  have hne : name.toList ≠ [] := by simpa using h.ne_empty
  obtain ⟨c, chars, hchars⟩ := List.exists_cons_of_ne_nil hne
  refine ⟨c, chars ++ rest, ?_, ?_⟩
  . rintro rfl
    exact h.slash_notMem (by simp [hchars])
  . rw [hrest]
    rw [hchars]
    rfl

def IsProper (path : Path) : Prop := ∀ name ∈ path.names, IsStep name

theorem mem_intercalate_iff {c : Char} {comma : String} {texts : List String} :
    c ∈ (comma.intercalate texts).toList ↔
      1 < texts.length ∧ c ∈ comma.toList ∨ ∃ text ∈ texts, c ∈ text.toList := by
  induction texts with
  | nil => simp
  | cons text texts ih =>
    cases texts with
    | nil => simp
    | cons next texts =>
      rw [String.intercalate_cons_cons]
      simp only [String.toList_append, List.mem_append, ih]
      grind

theorem mem_intercalate_slash_iff {c : Char} (hc : c ≠ '/') {names : List String} :
    c ∈ ("/".intercalate names).toList ↔ ∃ name ∈ names, c ∈ name.toList := by
  rw [mem_intercalate_iff]
  simp [hc]

theorem hasNul_eq_false_iff {text : String} : hasNul text = false ↔ Char.ofNat 0 ∉ text.toList := by
  unfold hasNul
  rw [String.contains_char_eq]
  simp

theorem isProper_ofText (text : String) : (ofText text).IsProper := by
  intro name h
  exact isStep_of_mem_namesOf h

theorem text_of_names_ne_nil {path : Path} (h : path.names ≠ []) :
    path.text = path.anchor.text ++ "/".intercalate path.names := by
  unfold text
  split
  . next hnames => exact absurd hnames h
  . rfl

@[simp]
theorem descend_nil (path : Path) : path.descend [] = path := by
  simp [descend]

@[simp]
theorem descend_descend (path : Path) (names names' : List String) :
    (path.descend names).descend names' = path.descend (names ++ names') := by
  simp [descend]

theorem descend_injective (path : Path) : Function.Injective path.descend := by
  intro a b h
  simpa [descend] using h

theorem hasNul_text_eq_false_iff {path : Path} :
    hasNul path.text = false ↔ ∀ name ∈ path.names, Char.ofNat 0 ∉ name.toList := by
  rw [hasNul_eq_false_iff]
  obtain ⟨anchor, names⟩ := path
  cases names with
  | nil => cases anchor <;> simp [text, Anchor.text]
  | cons name names =>
    rw [text_of_names_ne_nil (by simp)]
    rw [String.toList_append]
    rw [List.mem_append]
    rw [mem_intercalate_slash_iff (by decide)]
    cases anchor <;> simp [Anchor.text]

theorem hasNul_text_descend {path : Path} (h : hasNul path.text = false) {names : List String}
    (hnames : ∀ name ∈ names, Char.ofNat 0 ∉ name.toList) :
    hasNul (path.descend names).text = false := by
  rw [hasNul_text_eq_false_iff] at h ⊢
  intro name hname
  cases List.mem_append.mp hname with
  | inl hname => exact h name hname
  | inr hname => exact hnames name hname

theorem IsProper.descend {path : Path} (hpath : path.IsProper) {names : List String}
    (hnames : ∀ name ∈ names, IsStep name) : (path.descend names).IsProper := by
  intro name h
  cases List.mem_append.mp h with
  | inl h => exact hpath name h
  | inr h => exact hnames name h

end Path

namespace Host

open ParadigmScan.Path

theorem endsWith_slash_eq_false {names : List String} (hne : names ≠ [])
    (h : ∀ name ∈ names, IsStep name) (before : String) :
    (before ++ "/".intercalate names).endsWith "/" = false := by
  obtain ⟨init, last, rfl⟩ := (List.eq_nil_or_concat names).resolve_left hne
  rw [List.concat_eq_append] at h ⊢
  have hlast := h last (by simp)
  have hsuffix : ∃ init', (before ++ "/".intercalate (init ++ [last])).toList =
      init' ++ last.toList := by
    cases init with
    | nil => exact ⟨before.toList, by simp⟩
    | cons name init =>
      rw [String.intercalate_append_of_ne_nil (by simp) (by simp)]
      rw [String.intercalate_singleton]
      rw [← String.append_assoc]
      rw [String.toList_append]
      exact ⟨_, rfl⟩
  obtain ⟨init', hinit⟩ := hsuffix
  rw [String.endsWith_eq_endsWith_toSlice]
  rw [String.Slice.endsWith_string_eq_false_iff]
  rw [String.copy_toSlice]
  rw [hinit]
  rintro ⟨chars, hchars⟩
  have hslash : last.toList.getLast? = some '/' := by
    have hne : last.toList ≠ [] := by simpa using hlast.ne_empty
    rw [← List.getLast?_append_of_ne_nil init' hne]
    rw [← hchars]
    simp
  exact hlast.slash_notMem (List.mem_of_getLast? hslash)

theorem stepsOf_anchor_append (anchor : Anchor) {names : List String} (hne : names ≠ [])
    (h : ∀ name ∈ names, IsStep name) :
    stepsOf (anchor.text ++ "/".intercalate names) = names := by
  have hfilter : names.filter (· != "") = names := by
    rw [List.filter_eq_self]
    intro name hname
    simpa using (h name hname).ne_empty
  have hparts : (parts (anchor.text ++ "/".intercalate names)).filter (· != "") = names := by
    obtain ⟨count, hparts⟩ := parts_anchor_append anchor hne h
    rw [hparts]
    simpa using hfilter
  unfold stepsOf
  rw [hparts]
  rw [endsWith_slash_eq_false hne h]
  simp

theorem stepsOf_text {path : Path} (hpath : path.IsProper) (hne : path.names ≠ []) :
    stepsOf path.text = path.names := by
  rw [text_of_names_ne_nil hne]
  exact stepsOf_anchor_append path.anchor hne hpath

theorem startsWith_slash_text {path : Path} (hpath : path.IsProper) :
    path.text.startsWith "/" = true ↔ path.anchor ≠ .here := by
  rw [String.startsWith_string_iff]
  obtain ⟨anchor, names⟩ := path
  cases anchor with
  | here =>
    cases names with
    | nil => simp [text]
    | cons name names =>
      have hname := hpath name (by simp)
      rw [text_of_names_ne_nil (by simp)]
      simp only [Anchor.text, String.empty_append, ne_eq, not_true_eq_false, iff_false]
      rintro ⟨chars, hchars⟩
      obtain ⟨c, rest, hc, hrest⟩ := @exists_intercalate_eq_cons name names hname
      rw [hrest] at hchars
      simp [hc.symm] at hchars
  | root => cases names <;> simp [text, Anchor.text]
  | doubleRoot => cases names <;> simp [text, Anchor.text]

end Host

end ParadigmScan
