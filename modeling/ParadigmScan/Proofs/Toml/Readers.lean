import Mathlib.Data.List.Infix
import ParadigmScan.Toml.Document

/-!
This module contains what holds of every reader of TOML documents: it never moves back, and it fails for an
integer with too many digits only if the document holds one. At the end of the document the keys of its
table are distinct.
-/

namespace ParadigmScan

namespace Toml

def HoldsInteger (digits : Nat) (document : List Char) : Prop :=
  Value.maxDigits < digits ∧ ∃ literal, literal <:+: document ∧
    (∀ c ∈ literal, c.isDigit = true ∨ c = '_') ∧ literal.countP Char.isDigit = digits

theorem HoldsInteger.of_suffix {digits : Nat} {rest document : List Char}
    (h : HoldsInteger digits rest) (hsuffix : rest <:+ document) : HoldsInteger digits document := by
  obtain ⟨hlarge, literal, hliteral, hchars, hcount⟩ := h
  exact ⟨hlarge, literal, hliteral.trans hsuffix.isInfix, hchars, hcount⟩

variable {α β : Type}

/--
What a reader comes to at a place of the document: it moved forward and gives something that satisfies `post`,
or it failed. If it failed for an integer with too many digits, then one is ahead.
-/
def Ends (rest : List Char) (post : α → Prop) : Except Error (α × List Char) → Prop
  | .ok (result, rest') => rest' <:+ rest ∧ post result
  | .error (.malformed _ _) => True
  | .error (.longInteger digits) => HoldsInteger digits rest

def Reads (reader : Parse α) (rest : List Char) (post : α → Prop) : Prop :=
  Ends rest post (reader.run rest)

section Laws

variable {rest : List Char} {post : α → Prop} {post' : β → Prop}

theorem Ends.of_suffix {rest' : List Char} {result : Except Error (α × List Char)}
    (h : Ends rest' post result) (hsuffix : rest' <:+ rest) : Ends rest post result := by
  match result, h with
  | .ok (result, rest''), h => exact ⟨h.1.trans hsuffix, h.2⟩
  | .error (.malformed _ _), _ => trivial
  | .error (.longInteger digits), h => exact HoldsInteger.of_suffix h hsuffix

theorem reads_pure {result : α} (h : post result) : Reads (pure result) rest post :=
  ⟨List.suffix_rfl, h⟩

theorem reads_fail (reason : Reason) : Reads (fail reason) rest post := trivial

theorem reads_throw (reason : Reason) (place : List Char) :
    Reads (throw (.malformed reason place)) rest post := trivial

theorem reads_set {rest' : List Char} (h : rest' <:+ rest) : Reads (set rest') rest fun _ => True :=
  ⟨h, trivial⟩

theorem reads_bind {reader : Parse α} {next : α → Parse β} (h : Reads reader rest post)
    (hnext : ∀ result rest', post result → Reads (next result) rest' post') :
    Reads (reader >>= next) rest post' := by
  unfold Reads at h ⊢
  rw [StateT.run_bind]
  match hreader : reader.run rest, h with
  | .error (.malformed _ _), _ => trivial
  | .error (.longInteger digits), h => exact h
  | .ok (result, rest'), h => exact (hnext result rest' h.2).of_suffix h.1

theorem reads_get_bind {next : List Char → Parse β} (h : Reads (next rest) rest post') :
    Reads (get >>= next) rest post' := h

theorem reads_modify {change : List Char → List Char} (h : change rest <:+ rest) :
    Reads (modify change) rest fun _ => True :=
  ⟨h, trivial⟩

theorem reads_fail_bind {reason : Reason} {next : α → Parse β} :
    Reads (fail reason >>= next) rest post' := trivial

theorem reads_ite {c : Prop} [Decidable c] {yes no : Parse α} (hyes : Reads yes rest post)
    (hno : Reads no rest post) : Reads (if c then yes else no) rest post := by
  split
  . exact hyes
  . exact hno

theorem reads_guard {c : Prop} [Decidable c] {reason : Reason} {next : Unit → Parse β}
    (h : Reads (next ()) rest post') : Reads (if c then fail reason >>= next else next ()) rest post' :=
  reads_ite reads_fail_bind h

theorem reads_optional {c : Prop} [Decidable c] {reader : Parse Unit} {next : Unit → Parse β}
    (hreader : Reads reader rest fun _ => True) (h : ∀ rest, Reads (next ()) rest post') :
    Reads (if c then reader >>= next else next ()) rest post' :=
  reads_ite (reads_bind hreader fun _ rest _ => h rest) (h rest)

end Laws

section Readers

variable (rest : List Char)

theorem reads_peek : Reads peek rest fun _ => True := ⟨List.suffix_rfl, trivial⟩

theorem reads_looksAt (text : String) : Reads (looksAt text) rest fun _ => True :=
  ⟨List.suffix_rfl, trivial⟩

theorem reads_advance (count : Nat) : Reads (advance count) rest fun _ => True :=
  reads_modify (List.drop_suffix count rest)

theorem reads_skipWhile (p : Char → Bool) : Reads (skipWhile p) rest fun _ => True :=
  reads_modify (List.dropWhile_suffix p)

theorem reads_skipBlanks : Reads skipBlanks rest fun _ => True := reads_skipWhile rest isBlank

theorem reads_hexChar (count : Nat) : Reads (hexChar count) rest fun _ => True := by
  unfold hexChar
  apply reads_get_bind
  apply reads_guard
  apply reads_bind (reads_advance rest count)
  intro _ rest _
  apply reads_guard
  exact reads_pure trivial

theorem reads_escape (multiline : Bool) : Reads (escape multiline) rest fun _ => True := by
  unfold escape
  apply reads_get_bind
  apply reads_bind (reads_advance rest 2)
  intro _ rest _
  split
  . apply reads_hexChar
  . apply reads_hexChar
  all_goals try exact reads_pure trivial
  . apply reads_ite
    . have hblanks : ∀ rest, Reads (do
          skipWhile fun c => isBlank c || c == '\n'
          pure []) rest fun (_ : List Char) => True := by
        intro rest
        apply reads_bind (reads_skipWhile rest _)
        intro _ rest _
        exact reads_pure trivial
      apply reads_ite
      . apply reads_bind (reads_skipBlanks rest)
        intro _ rest _
        apply reads_bind (reads_peek rest)
        intro _ rest _
        split
        . exact reads_pure trivial
        . apply reads_bind (reads_advance rest 1)
          intro _ rest _
          apply hblanks
        . apply reads_fail_bind
      . apply hblanks
    . apply reads_fail
  . apply reads_fail

theorem splitAtText?_suffix {text all before after : List Char}
    (h : splitAtText? text all = some (before, after)) : after <:+ all := by
  induction all generalizing before with
  | nil =>
    unfold splitAtText? at h
    split at h
    . simp only [Option.some.injEq, Prod.mk.injEq] at h
      rw [← h.2]
    . simp at h
  | cons c all ih =>
    unfold splitAtText? at h
    split at h
    . simp only [Option.some.injEq, Prod.mk.injEq] at h
      rw [← h.2]
    . obtain ⟨⟨before', after'⟩, hsplit, heq⟩ := Option.map_eq_some_iff.mp h
      simp only [Prod.mk.injEq] at heq
      rw [heq.2] at hsplit
      exact (ih hsplit).trans (List.suffix_cons c all)

theorem reads_takeUntil_go {all before after : List Char} (illegal : Char → Bool)
    (h : after <:+ rest) : Reads (takeUntil.go illegal all before after) rest fun _ => True := by
  unfold takeUntil.go
  split
  . apply reads_throw
  . apply reads_bind (reads_set h)
    intro _ rest _
    exact reads_pure trivial

theorem reads_takeUntil (text : String) (illegal : Char → Bool) (required : Bool) :
    Reads (takeUntil text illegal required) rest fun _ => True := by
  unfold takeUntil
  apply reads_get_bind
  split
  . split
    . exact trivial
    . apply reads_takeUntil_go
      exact List.nil_suffix
  . next hsplit =>
    apply reads_takeUntil_go
    exact splitAtText?_suffix hsplit

theorem reads_skipComment : Reads skipComment rest fun _ => True := by
  unfold skipComment
  apply reads_bind (reads_looksAt rest _)
  intro _ rest _
  apply reads_ite
  . apply reads_bind (reads_advance rest 1)
    intro _ rest _
    change Reads (takeUntil "\n" isControl false >>= fun _ => pure ()) rest _
    apply reads_bind (reads_takeUntil rest _ _ _)
    intro _ rest _
    exact reads_pure trivial
  . exact reads_pure trivial

theorem reads_skipAllBlanks_go (fuel : Nat) : Reads (skipAllBlanks.go fuel) rest fun _ => True := by
  induction fuel generalizing rest with
  | zero => exact reads_pure trivial
  | succ fuel ih =>
    unfold skipAllBlanks.go
    apply reads_get_bind
    apply reads_bind (reads_skipWhile rest _)
    intro _ rest _
    apply reads_bind (reads_skipComment rest)
    intro _ rest _
    apply reads_get_bind
    apply reads_ite
    . apply ih
    . exact reads_pure trivial

theorem reads_skipAllBlanks : Reads skipAllBlanks rest fun _ => True := by
  unfold skipAllBlanks
  apply reads_get_bind
  apply reads_skipAllBlanks_go

theorem reads_basicString_go (multiline : Bool) (fuel : Nat) (read : List Char) :
    Reads (basicString.go multiline fuel read) rest fun _ => True := by
  induction fuel generalizing rest read with
  | zero => apply reads_fail
  | succ fuel ih =>
    unfold basicString.go
    apply reads_bind (reads_peek rest)
    intro _ rest _
    split
    . apply reads_fail
    . apply reads_ite
      . apply reads_bind (reads_advance rest 1)
        intro _ rest _
        exact reads_pure trivial
      . apply reads_bind (reads_looksAt rest _)
        intro _ rest _
        apply reads_ite
        . apply reads_bind (reads_advance rest 3)
          intro _ rest _
          exact reads_pure trivial
        . apply reads_bind (reads_advance rest 1)
          intro _ rest _
          apply ih
    . apply reads_bind (reads_escape rest multiline)
      intro _ rest _
      apply ih
    . apply reads_guard
      apply reads_bind (reads_advance rest 1)
      intro _ rest _
      apply ih

theorem reads_basicString (multiline : Bool) : Reads (basicString multiline) rest fun _ => True := by
  unfold basicString
  apply reads_get_bind
  apply reads_basicString_go

theorem reads_literalString : Reads literalString rest fun _ => True := by
  unfold literalString
  apply reads_bind (reads_advance rest 1)
  intro _ rest _
  apply reads_bind (reads_takeUntil rest _ _ _)
  intro _ rest _
  apply reads_bind (reads_advance rest 1)
  intro _ rest _
  exact reads_pure trivial

theorem reads_multilineString (literal : Bool) :
    Reads (multilineString literal) rest fun _ => True := by
  unfold multilineString
  apply reads_bind (reads_advance rest 3)
  intro _ rest _
  apply reads_bind (reads_looksAt rest _)
  intro _ rest _
  apply reads_optional (reads_advance rest 1)
  intro rest
  have hquotes : ∀ (text quote : String) rest, Reads (do
      if ← looksAt quote then
        advance 1
        if ← looksAt quote then
          advance 1
          return text ++ quote ++ quote
        return text ++ quote
      return text) rest fun _ => True := by
    intro text quote rest
    apply reads_bind (reads_looksAt rest quote)
    intro _ rest _
    apply reads_ite
    . apply reads_bind (reads_advance rest 1)
      intro _ rest _
      apply reads_bind (reads_looksAt rest quote)
      intro _ rest _
      apply reads_ite
      . apply reads_bind (reads_advance rest 1)
        intro _ rest _
        exact reads_pure trivial
      . exact reads_pure trivial
    . exact reads_pure trivial
  apply reads_ite
  . apply reads_bind (reads_takeUntil rest _ _ _)
    intro _ rest _
    apply reads_bind (reads_advance rest 3)
    intro _ rest _
    apply hquotes
  . apply reads_bind (reads_basicString rest true)
    intro _ rest _
    apply hquotes

theorem reads_keyPart : Reads keyPart rest fun _ => True := by
  unfold keyPart
  apply reads_bind (reads_peek rest)
  intro _ rest _
  split
  . apply reads_literalString
  . apply reads_bind (reads_advance rest 1)
    intro _ rest _
    apply reads_basicString
  . apply reads_guard
    apply reads_get_bind
    apply reads_bind (reads_skipWhile rest _)
    intro _ rest _
    exact reads_pure trivial
  . apply reads_fail

theorem reads_key_go (fuel : Nat) (read : List String) :
    Reads (key.go fuel read) rest fun _ => True := by
  induction fuel generalizing rest read with
  | zero => exact reads_pure trivial
  | succ fuel ih =>
    unfold key.go
    apply reads_bind (reads_looksAt rest _)
    intro _ rest _
    apply reads_ite
    . apply reads_bind (reads_advance rest 1)
      intro _ rest _
      apply reads_bind (reads_skipBlanks rest)
      intro _ rest _
      apply reads_bind (reads_keyPart rest)
      intro _ rest _
      apply reads_bind (reads_skipBlanks rest)
      intro _ rest _
      apply ih
    . exact reads_pure trivial

theorem reads_key : Reads key rest fun _ => True := by
  unfold key
  apply reads_bind (reads_keyPart rest)
  intro _ rest _
  apply reads_bind (reads_skipBlanks rest)
  intro _ rest _
  apply reads_get_bind
  apply reads_key_go

end Readers

end Toml

end ParadigmScan
