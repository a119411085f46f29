import ParadigmScan.Proofs.Json.Reading
import ParadigmScan.Proofs.Ratio.Display

/-!
This module contains that the text of a JSON value stands for the value, in every layout, and that a report can be read
back from its text.
-/

namespace ParadigmScan

namespace Json

def codePoints (text : String) : List CodePoint := text.toList.map Char.toNat

mutual

def data : Json → Data
  | null => .null
  | integer value => .integer value
  | number value => .number value
  | text value => .text (codePoints value)
  | object members => .object (dataMembers members)

def dataMembers : List (String × Json) → List (List CodePoint × Data)
  | [] => []
  | (key, value) :: rest => (codePoints key, data value) :: dataMembers rest

end

theorem dataMembers_cons (member : String × Json) (rest : List (String × Json)) :
    dataMembers (member :: rest) = (codePoints member.1, member.2.data) :: dataMembers rest := by
  rw [dataMembers]

inductive IsWritable : Json → Prop
  | null : IsWritable .null
  | integer (value : Int) : IsWritable (.integer value)
  | number {value : Binary64} : value.IsCanonical → IsWritable (.number value)
  | text (value : String) : IsWritable (.text value)
  | object {members : List (String × Json)} : (∀ member ∈ members, IsWritable member.2) → IsWritable (.object members)

theorem isWritable_object {members : List (String × Json)} :
    (object members).IsWritable ↔ ∀ member ∈ members, member.2.IsWritable := by
  constructor
  . rintro ⟨⟩
    assumption
  . exact .object

section Strings

theorem isUnit_escapeUnit (unit : Nat) (h : unit < 65536) : IsUnit (escapeUnit unit) unit := by
  have hdigit : ∀ n < 16, hexValue? (hexDigit n) = some n := by decide
  have hunit := IsUnit.hex (hdigit (unit / 4096 % 16) (by omega)) (hdigit (unit / 256 % 16) (by omega))
    (hdigit (unit / 16 % 16) (by omega)) (hdigit (unit % 16) (by omega))
  rw [show ((unit / 4096 % 16 * 16 + unit / 256 % 16) * 16 + unit / 16 % 16) * 16 + unit % 16 = unit by omega] at hunit
  exact hunit

theorem isContent_singleton {unit : List Char} {point : CodePoint} (h : IsUnit unit point) :
    IsContent unit [point] := by
  simpa using IsContent.cons h .nil

theorem IsContent.append {content content' : List Char} {points points' : List CodePoint}
    (h : IsContent content points) (h' : IsContent content' points') :
    IsContent (content ++ content') (points ++ points') := by
  induction h with
  | nil => exact h'
  | cons hunit _ ih =>
    rw [List.append_assoc]
    exact .cons hunit ih

theorem joinPairs_cons {point : Nat} (h : point < 0xD800 ∨ 0xDC00 ≤ point) (rest : List Nat) :
    joinPairs (point :: rest) = point :: joinPairs rest := by
  cases rest with
  | nil => rfl
  | cons low rest =>
    rw [joinPairs]
    apply if_neg
    rintro ⟨hlow, hhigh, -, -⟩
    have hlow : 0xD800 ≤ point := hlow
    have hhigh : point < 0xDC00 := hhigh
    omega

theorem joinPairs_pair {n : Nat} (h : n < 0x100000) (rest : List Nat) :
    joinPairs ((0xD800 + n / 1024) :: (0xDC00 + n % 1024) :: rest) = (0x10000 + n) :: joinPairs rest := by
  have hpair : 0xD800 ≤ 0xD800 + n / 1024 ∧ 0xD800 + n / 1024 < 0xDC00 ∧ 0xDC00 ≤ 0xDC00 + n % 1024 ∧
      0xDC00 + n % 1024 < 0xE000 := by
    omega
  have hvalue : 0x10000 + (0xD800 + n / 1024 - 0xD800) * 1024 + (0xDC00 + n % 1024 - 0xDC00) = 0x10000 + n := by
    omega
  rw [joinPairs]
  refine (if_pos hpair).trans ?_
  rw [hvalue]

def isPrintable (c : Char) : Bool := 32 ≤ c.toNat && c.toNat < 127

theorem escapeChar_cases (c : Char) :
    (∃ escape, (escape, c.toNat) ∈ shortEscapes ∧ escapeChar c = ['\\', escape]) ∨
      (isPrintable c = true ∧ c ≠ '"' ∧ c ≠ '\\' ∧ escapeChar c = [c]) ∨
      escapeChar c = (units c).flatMap escapeUnit := by
  have hshort : ∀ escape, (escape, c.toNat) ∈ shortEscapes → ∃ other, (other, c.toNat) ∈ shortEscapes ∧
      ['\\', escape] = ['\\', other] := fun escape hmem => ⟨escape, hmem, rfl⟩
  unfold escapeChar
  split
  . next h => exact .inl (hshort _ (by simp [shortEscapes, eq_of_beq h]))
  next hquote =>
  split
  . next h => exact .inl (hshort _ (by simp [shortEscapes, eq_of_beq h]))
  next hescape =>
  split
  . next h => exact .inl (hshort _ (by simp [shortEscapes, eq_of_beq h]))
  split
  . next h => exact .inl (hshort _ (by simp [shortEscapes, eq_of_beq h]))
  split
  . next h => exact .inl (hshort _ (by simp [shortEscapes, eq_of_beq h]))
  split
  . next h => exact .inl (hshort _ (by simp [shortEscapes, eq_of_beq h]))
  split
  . next h => exact .inl (hshort _ (by simp [shortEscapes, eq_of_beq h]))
  split
  . next h => exact .inr (.inl ⟨h, by simpa using hquote, by simpa using hescape, rfl⟩)
  . exact .inr (.inr rfl)

theorem exists_isContent_escapeChar (c : Char) :
    ∃ points, IsContent (escapeChar c) points ∧ ∀ rest, joinPairs (points ++ rest) = c.toNat :: joinPairs rest := by
  have hvalid : c.toNat < 0xD800 ∨ 0xDC00 ≤ c.toNat ∧ c.toNat < 0x110000 := by
    have hc : c.toNat.isValidChar := c.valid
    unfold Nat.isValidChar at hc
    omega
  have hone : ∀ {unit : List Char}, IsUnit unit c.toNat → ∃ points, IsContent unit points ∧
      ∀ rest, joinPairs (points ++ rest) = c.toNat :: joinPairs rest := fun hunit =>
    ⟨[c.toNat], isContent_singleton hunit, joinPairs_cons (by omega)⟩
  rcases escapeChar_cases c with ⟨escape, hmem, heq⟩ | ⟨hprintable, hquote, hescape, heq⟩ | heq
  . rw [heq]
    exact hone (.short hmem)
  . rw [heq]
    simp only [isPrintable, Bool.and_eq_true, decide_eq_true_eq] at hprintable
    exact hone (.plain hprintable.1 hquote hescape)
  . rw [heq]
    unfold units
    split
    . next hsmall =>
      rw [List.flatMap_singleton]
      exact hone (isUnit_escapeUnit c.toNat hsmall)
    . have hhigh := isContent_singleton (isUnit_escapeUnit (0xD800 + (c.toNat - 0x10000) / 1024) (by omega))
      have hlow := isContent_singleton (isUnit_escapeUnit (0xDC00 + (c.toNat - 0x10000) % 1024) (by omega))
      refine ⟨_, by simpa using hhigh.append hlow, ?_⟩
      intro rest
      refine (joinPairs_pair (n := c.toNat - 0x10000) (by omega) rest).trans ?_
      rw [Nat.add_sub_of_le (by omega)]

theorem isText_quote (text : String) : IsText (quote text).toList (codePoints text) := by
  have hcontent : ∀ chars : List Char, ∃ points, IsContent (chars.flatMap escapeChar) points ∧
      joinPairs points = chars.map Char.toNat := by
    intro chars
    induction chars with
    | nil => exact ⟨[], .nil, rfl⟩
    | cons c chars ih =>
      obtain ⟨points, hcontent, hpoints⟩ := ih
      obtain ⟨first, hfirst, hjoin⟩ := exists_isContent_escapeChar c
      refine ⟨first ++ points, hfirst.append hcontent, ?_⟩
      rw [hjoin]
      rw [hpoints]
      rfl
  obtain ⟨points, hcontent, hpoints⟩ := hcontent text.toList
  unfold quote codePoints
  rw [← hpoints]
  simpa using IsText.mk hcontent

end Strings

section Numbers

theorem exists_numeral_toString (value : Int) :
    ∃ n : Numeral, n.IsWellFormed ∧ n.text = (toString value).toList ∧ ofNumeral n = .integer value := by
  refine ⟨{ negative := decide (value < 0), whole := Nat.toDigits 10 value.natAbs }, ?_, ?_, ?_⟩
  . exact ⟨Nat.toDigits_ne_nil, Binary64.toDigits_of_head, Binary64.Decimal.isDigit_of_mem_toDigits, by simp, by simp⟩
  . rw [Binary64.toList_toString_int]
    simp [Numeral.text, Numeral.unsignedText, Numeral.fractionText, Numeral.exponentText]
  . simp only [ofNumeral, Numeral.isInteger, Numeral.digits, List.append_nil, Nat.ofDigitChars_ten_toDigits,
      List.isEmpty_nil, Option.isNone_none, Bool.and_self, ↓reduceIte, decide_eq_true_eq]
    congr 1
    split <;> omega

theorem exists_numeral_text {value : Binary64} (h : value.IsCanonical) :
    ∃ n : Numeral, n.IsWellFormed ∧ n.text = value.text.toList ∧ ofNumeral n = .number value := by
  obtain ⟨n, hn, hinteger, htext, hvalue⟩ := h.exists_numeral
  refine ⟨n, hn, htext, ?_⟩
  unfold ofNumeral
  rw [hinteger]
  rw [hvalue]
  rfl

end Numbers

section Layouts

def Layout.IsBlank : Layout → Prop
  | .compact => True
  | .indented unit => AreBlank unit.toList

theorem areBlank_nil : AreBlank [] := by simp [AreBlank]

theorem areBlank_space : AreBlank [' '] := by simp [AreBlank, isBlank]

theorem AreBlank.append {text text' : List Char} (h : AreBlank text) (h' : AreBlank text') :
    AreBlank (text ++ text') := by
  intro c hc
  rcases List.mem_append.mp hc with hc | hc
  . exact h c hc
  . exact h' c hc

theorem Layout.IsBlank.lineBreak {layout : Layout} (h : layout.IsBlank) (level : Nat) :
    AreBlank (layout.lineBreak level).toList := by
  cases layout with
  | compact => simp [Layout.lineBreak, AreBlank]
  | indented unit =>
    intro c hc
    simp only [Layout.lineBreak, String.toList_append, List.mem_append] at hc
    rcases hc with hc | hc
    . rw [List.mem_singleton.mp hc]
      rfl
    . rw [String.toList_join] at hc
      obtain ⟨text, htext, hc⟩ := List.mem_flatMap.mp hc
      rw [(List.mem_replicate.mp htext).2] at hc
      exact h c hc

theorem Layout.exists_separator (layout : Layout) :
    ∃ blanks, AreBlank blanks ∧ layout.separator.toList = ',' :: blanks := by
  cases layout with
  | compact => exact ⟨[' '], areBlank_space, rfl⟩
  | indented => exact ⟨[], areBlank_nil, by simp [Layout.separator]⟩

end Layouts

section Values

variable {layout : Layout} (hlayout : layout.IsBlank) (level : Nat)

include hlayout

theorem isMember_renderMember {member : String × Json}
    (hvalue : IsValue (renderAt layout level member.2).toList member.2.data) {before after : List Char}
    (hbefore : AreBlank before) (hafter : AreBlank after) :
    IsMember (before ++ (renderMember layout level member).toList ++ after)
      (codePoints member.1, member.2.data) := by
  have hitem := IsItem.mk areBlank_space hvalue hafter
  have hmember := IsMember.mk (hbefore.append (hlayout.lineBreak level)) (isText_quote member.1) areBlank_nil hitem
  rw [renderMember]
  simpa using hmember

theorem isSeparated_renderRest {first : String × Json} {rest : List (String × Json)}
    (hvalues : ∀ member ∈ first :: rest, IsValue (renderAt layout level member.2).toList member.2.data)
    {before after : List Char} (hbefore : AreBlank before) (hafter : AreBlank after) :
    IsSeparated IsMember
      (before ++ (renderMember layout level first).toList ++ ((renderRest layout level rest).toList ++ after))
      (dataMembers (first :: rest)) := by
  induction rest generalizing first before with
  | nil =>
    have hmember := isMember_renderMember hlayout level (hvalues first List.mem_cons_self) hbefore hafter
    rw [renderRest]
    rw [dataMembers_cons]
    rw [dataMembers]
    simpa using IsSeparated.one hmember
  | cons second rest ih =>
    obtain ⟨blanks, hblanks, hseparator⟩ := layout.exists_separator
    have hrest := ih (fun member hmember => hvalues member (List.mem_cons_of_mem _ hmember)) hblanks
    have hmember := isMember_renderMember hlayout level (hvalues first List.mem_cons_self) hbefore areBlank_nil
    have hmembers := IsSeparated.cons hmember hrest
    rw [renderRest]
    rw [dataMembers_cons]
    rw [String.toList_append]
    rw [String.toList_append]
    rw [hseparator]
    simpa using hmembers

theorem isValue_renderAt {value : Json} (h : value.IsWritable) :
    IsValue (renderAt layout level value).toList value.data := by
  induction h generalizing level with
  | null =>
    rw [renderAt]
    rw [data]
    exact .word (by simp [words])
  | integer value =>
    rw [renderAt]
    rw [data]
    obtain ⟨n, hn, htext, hvalue⟩ := exists_numeral_toString value
    rw [← htext]
    rw [← hvalue]
    exact .number hn
  | number hcanonical =>
    rw [renderAt]
    rw [data]
    obtain ⟨n, hn, htext, hvalue⟩ := exists_numeral_text hcanonical
    rw [← htext]
    rw [← hvalue]
    exact .number hn
  | text value =>
    rw [renderAt]
    rw [data]
    exact .text (isText_quote value)
  | @object members _ ih =>
    rw [data]
    cases members with
    | nil =>
      rw [renderAt]
      rw [dataMembers]
      exact .emptyObject areBlank_nil
    | cons first rest =>
      have hmembers := isSeparated_renderRest hlayout (level + 1) (fun member hmember => ih member hmember (level + 1))
        areBlank_nil (hlayout.lineBreak level)
      rw [renderAt]
      simpa using IsValue.object hmembers

end Values

section Characters

theorem isPrintable_of_isDigit {c : Char} (h : c.isDigit = true) : isPrintable c = true := by
  have hbounds := Char.isDigit_iff_toNat.mp h
  have hlow : '0'.toNat = 48 := rfl
  have hhigh : '9'.toNat = 57 := rfl
  simp only [isPrintable, Bool.and_eq_true, decide_eq_true_eq]
  omega

theorem isPrintable_of_mem_escapeChar {c other : Char} (h : c ∈ escapeChar other) : isPrintable c = true := by
  have hdigit : ∀ n < 16, isPrintable (hexDigit n) = true := by decide
  have hunit : ∀ unit, ∀ c ∈ escapeUnit unit, isPrintable c = true := by
    intro unit c hc
    have h16 : ∀ n, isPrintable (hexDigit (n % 16)) = true := fun n => hdigit _ (Nat.mod_lt n (by decide))
    simp only [escapeUnit, List.mem_cons, List.not_mem_nil, or_false] at hc
    rcases hc with rfl | rfl | rfl | rfl | rfl | rfl
    . rfl
    . rfl
    . exact h16 _
    . exact h16 _
    . exact h16 _
    . exact h16 _
  have hshort : ∀ entry ∈ shortEscapes, isPrintable entry.1 = true := by simp [shortEscapes, isPrintable]
  rcases escapeChar_cases other with ⟨escape, hmem, heq⟩ | ⟨hprintable, -, -, heq⟩ | heq
  . rw [heq] at h
    simp only [List.mem_cons, List.not_mem_nil, or_false] at h
    rcases h with rfl | rfl
    . rfl
    . exact hshort _ hmem
  . rw [heq] at h
    rw [List.mem_singleton.mp h]
    exact hprintable
  . rw [heq] at h
    obtain ⟨unit, -, hc⟩ := List.mem_flatMap.mp h
    exact hunit unit c hc

theorem isPrintable_of_mem_quote {c : Char} {text : String} (h : c ∈ (quote text).toList) : isPrintable c = true := by
  simp only [quote, String.toList_append, String.toList_ofList, List.mem_append, List.mem_flatMap] at h
  rcases h with (h | ⟨other, -, h⟩) | h
  . rw [List.mem_singleton.mp h]
    rfl
  . exact isPrintable_of_mem_escapeChar h
  . rw [List.mem_singleton.mp h]
    rfl

theorem isPrintable_of_mem_text {n : Numeral} (hn : n.IsWellFormed) {c : Char} (h : c ∈ n.text) :
    isPrintable c = true := by
  rcases hn.mem_text h with hdigit | hother
  . exact isPrintable_of_isDigit hdigit
  . have hothers : ∀ c ∈ ['.', 'e', 'E', '+', '-'], isPrintable c = true := by simp [isPrintable]
    exact hothers c hother

variable {layout : Layout} {p : Char → Prop} (hprintable : ∀ c, isPrintable c = true → p c)
  (hbreak : ∀ level, ∀ c ∈ (layout.lineBreak level).toList, p c) (level : Nat)

include hprintable hbreak

theorem forall_mem_renderMember {member : String × Json} (h : ∀ c ∈ (renderAt layout level member.2).toList, p c) :
    ∀ c ∈ (renderMember layout level member).toList, p c := by
  intro c hc
  rw [renderMember] at hc
  simp only [String.toList_append, List.mem_append] at hc
  rcases hc with ((hc | hc) | hc) | hc
  . exact hbreak level c hc
  . exact hprintable c (isPrintable_of_mem_quote hc)
  . have hcolon : ∀ c ∈ ": ".toList, isPrintable c = true := by simp [isPrintable]
    exact hprintable c (hcolon c hc)
  . exact h c hc

theorem forall_mem_renderRest {members : List (String × Json)}
    (h : ∀ member ∈ members, ∀ c ∈ (renderAt layout level member.2).toList, p c) :
    ∀ c ∈ (renderRest layout level members).toList, p c := by
  induction members with
  | nil => simp [renderRest]
  | cons member members ih =>
    intro c hc
    rw [renderRest] at hc
    simp only [String.toList_append, List.mem_append] at hc
    rcases hc with (hc | hc) | hc
    . have hseparator : ∀ c ∈ layout.separator.toList, isPrintable c = true := by
        cases layout <;> simp [Layout.separator, isPrintable]
      exact hprintable c (hseparator c hc)
    . exact forall_mem_renderMember hprintable hbreak level (h member List.mem_cons_self) c hc
    . exact ih (fun member hmember => h member (List.mem_cons_of_mem _ hmember)) c hc

theorem forall_mem_renderAt {value : Json} (h : value.IsWritable) :
    ∀ c ∈ (renderAt layout level value).toList, p c := by
  induction h generalizing level with
  | null =>
    have hnull : ∀ c ∈ "null".toList, isPrintable c = true := by simp [isPrintable]
    rw [renderAt]
    exact fun c hc => hprintable c (hnull c hc)
  | integer value =>
    obtain ⟨n, hn, htext, -⟩ := exists_numeral_toString value
    rw [renderAt]
    rw [← htext]
    exact fun c hc => hprintable c (isPrintable_of_mem_text hn hc)
  | number hcanonical =>
    obtain ⟨n, hn, htext, -⟩ := exists_numeral_text hcanonical
    rw [renderAt]
    rw [← htext]
    exact fun c hc => hprintable c (isPrintable_of_mem_text hn hc)
  | text value =>
    rw [renderAt]
    exact fun c hc => hprintable c (isPrintable_of_mem_quote hc)
  | @object members _ ih =>
    have hbraces : ∀ c ∈ "\x7b\x7d".toList, isPrintable c = true := by simp [isPrintable]
    cases members with
    | nil =>
      rw [renderAt]
      exact fun c hc => hprintable c (hbraces c hc)
    | cons first rest =>
      intro c hc
      rw [renderAt] at hc
      simp only [String.toList_append, List.mem_append] at hc
      rcases hc with (((hc | hc) | hc) | hc) | hc
      . exact hprintable c (hbraces c (by simp_all))
      . exact forall_mem_renderMember hprintable hbreak _ (ih first List.mem_cons_self _) c hc
      . exact forall_mem_renderRest hprintable hbreak _
          (fun member hmember => ih member (List.mem_cons_of_mem _ hmember) _) c hc
      . exact hbreak level c hc
      . exact hprintable c (hbraces c (by simp_all))

end Characters

end Json

namespace Report

open Json

def data (r : Report) (ratio : Option Binary64) : Data :=
  fields [
    ("directory", .text (codePoints r.directory)),
    ("files", .integer r.files),
    ("oop", fields [
      ("total", .integer (r.totals.classes + r.totals.methods)),
      ("classes", .integer r.totals.classes),
      ("methods", .integer r.totals.methods)]),
    ("fp", fields [
      ("total", .integer (r.totals.functions + r.totals.arrows)),
      ("functions", .integer r.totals.functions),
      ("arrowFunctions", .integer r.totals.arrows)]),
    ("ratio", ratio.elim .null .number)]
where
  fields (members : List (String × Data)) : Data :=
    .object (members.map fun member => (codePoints member.1, member.2))

theorem exists_toJson {r : Report} {ratio : Option Ratio} (h : r.ratio = .ok ratio) :
    ∃ json, r.toJson = .ok json ∧ json.IsWritable ∧ json.data = r.data (ratio.map Ratio.toBinary64) := by
  unfold toJson
  rw [h]
  cases ratio with
  | none =>
    refine ⟨_, rfl, ?_, ?_⟩
    . simp [isWritable_object, IsWritable.null, IsWritable.integer, IsWritable.text]
    . simp [Json.data, dataMembers, data, data.fields, Tally.oop, Tally.fp]
  | some ratio =>
    obtain ⟨-, hdigits, -⟩ := Ratio.ofTotals_eq_some h
    have hnumber := IsWritable.number (Ratio.isCanonical_toBinary64 hdigits)
    refine ⟨_, rfl, ?_, ?_⟩
    . simp [isWritable_object, hnumber, IsWritable.integer, IsWritable.text]
    . simp [Json.data, dataMembers, data, data.fields, Tally.oop, Tally.fp]

theorem codePoints_injective {text text' : String} (h : codePoints text = codePoints text') : text = text' := by
  have hinjective : Function.Injective Char.toNat := fun _ _ => Char.toNat_inj.mp
  exact String.toList_inj.mp (List.map_injective_iff.mpr hinjective h)

theorem data_injective {r s : Report} {ratio ratio' : Option Binary64} (h : r.data ratio = s.data ratio') : r = s := by
  simp only [data, data.fields, List.map_cons, List.map_nil, Data.object.injEq, List.cons.injEq, Prod.mk.injEq,
    true_and, and_true, Data.text.injEq, Data.integer.injEq] at h
  obtain ⟨hdirectory, hfiles, ⟨-, hclasses, hmethods⟩, ⟨-, hfunctions, harrows⟩, -⟩ := h
  have hdirectory := codePoints_injective hdirectory
  obtain ⟨_, _, ⟨_, _, _, _⟩⟩ := r
  obtain ⟨_, _, ⟨_, _, _, _⟩⟩ := s
  dsimp only at hdirectory hfiles hclasses hmethods hfunctions harrows
  subst hdirectory hfiles hclasses hmethods hfunctions harrows
  rfl

theorem decode_toJsonText {r : Report} {layout : Layout} (hlayout : layout.IsBlank) {text : String}
    (h : r.toJsonText layout = .ok text) :
    ∃ ratio, r.numericRatio = .ok ratio ∧ decode text = some (r.data ratio) := by
  obtain ⟨ratio, hratio⟩ := exists_ratio_of_toJsonText h
  obtain ⟨json, hjson, hwritable, hdata⟩ := exists_toJson hratio
  unfold toJsonText at h
  rw [hjson] at h
  cases h
  refine ⟨ratio.map Ratio.toBinary64, ?_, ?_⟩
  . unfold numericRatio
    rw [hratio]
    rfl
  . rw [← hdata]
    apply decode_eq_some_iff.mpr
    show IsItem (renderAt layout 0 json).toList json.data
    simpa using IsItem.mk areBlank_nil (isValue_renderAt hlayout 0 hwritable) areBlank_nil

/--
A report can be read back from its text for programs, whatever blanks it is laid out with. The text is plain ASCII, it
stands for one object only, and no other report has it.
-/
theorem json_reads_back (r : Report) (layout : Layout) (hlayout : layout.IsBlank) (hratio : failure r.ratio = none) :
    ∃ text ratio, r.toJsonText layout = .ok text ∧ r.numericRatio = .ok ratio ∧
      (∀ c ∈ text.toList, c.toNat < 128) ∧
      (layout = .compact → '\n' ∉ text.toList) ∧
      decode text = some (r.data ratio) ∧
      (∀ value, IsItem text.toList value ↔ value = r.data ratio) ∧
      ∀ (s : Report) (other : Layout), other.IsBlank → s.toJsonText other = .ok text → s = r := by
  obtain ⟨ratio, hratio⟩ := failure_eq_none_iff.mp hratio
  obtain ⟨json, hjson, hwritable, -⟩ := exists_toJson hratio
  have htext : r.toJsonText layout = .ok (json.render layout) := by
    unfold toJsonText
    rw [hjson]
    rfl
  obtain ⟨number, hnumber, hdecode⟩ := decode_toJsonText hlayout htext
  refine ⟨_, number, htext, hnumber, ?_, ?_, hdecode, ?_, ?_⟩
  . refine forall_mem_renderAt (p := (·.toNat < 128)) ?_ ?_ 0 hwritable
    . intro c hc
      simp only [isPrintable, Bool.and_eq_true, decide_eq_true_eq] at hc
      omega
    . intro level c hc
      have hblank := hlayout.lineBreak level c hc
      simp only [isBlank, Bool.or_eq_true, beq_iff_eq] at hblank
      rcases hblank with ((rfl | rfl) | rfl) | rfl <;> decide
  . rintro rfl hnewline
    refine forall_mem_renderAt (p := (· ≠ '\n')) ?_ ?_ 0 hwritable '\n' hnewline rfl
    . rintro c hc rfl
      exact absurd hc (by decide)
    . simp [Layout.lineBreak]
  . intro value
    rw [← decode_eq_some_iff]
    rw [hdecode]
    rw [Option.some.injEq]
    exact eq_comm
  . intro s other hother hsame
    obtain ⟨number', -, hdecode'⟩ := decode_toJsonText hother hsame
    rw [hdecode] at hdecode'
    exact data_injective (Option.some.inj hdecode').symm

theorem json_reads_back_quotes :
    ∃ r : Report, r.directory = "\"\\😀" ∧ r.files = -3 ∧ r.totals.oop = 5 ∧ r.totals.fp = 2 ∧
      ∃ text ratio, r.toJsonText (.indented "\t") = .ok text ∧ r.numericRatio = .ok ratio ∧
        (∀ c ∈ text.toList, c.toNat < 128) ∧ decode text = some (r.data ratio) := by
  refine ⟨{ directory := "\"\\😀", files := -3, totals := { classes := 5, functions := 2 } }, rfl, rfl, rfl, rfl, ?_⟩
  obtain ⟨text, ratio, htext, hratio, hascii, -, hdecode, -⟩ :=
    json_reads_back { directory := "\"\\😀", files := -3, totals := { classes := 5, functions := 2 } }
      (.indented "\t") (by simp [Layout.IsBlank, AreBlank, isBlank]) rfl
  exact ⟨text, ratio, htext, hratio, hascii, hdecode⟩

end Report

end ParadigmScan
