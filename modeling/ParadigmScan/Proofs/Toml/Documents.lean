import ParadigmScan.Proofs.Table
import ParadigmScan.Proofs.Toml.Scalars

/-!
This module contains what holds of every TOML document that is read: its keys are distinct, and where reading
ends for an integer with too many digits, the document holds one.
-/

namespace ParadigmScan

namespace Toml

open Table

section Values

variable {fuel : Nat}

theorem reads_value_succ (hitems : ∀ rest read, Reads (arrayItems fuel read) rest fun _ => True)
    (hmembers : ∀ rest marks table, Reads (inlineMembers fuel marks table) rest fun _ => True)
    (rest : List Char) : Reads (value (fuel + 1)) rest fun _ => True := by
  unfold value
  apply reads_bind (reads_peek rest)
  intro _ rest _
  split
  . apply reads_bind (reads_looksAt rest _)
    intro _ rest _
    apply reads_ite
    . apply reads_bind (reads_multilineString rest false)
      intro _ rest _
      exact reads_pure trivial
    . apply reads_bind (reads_advance rest 1)
      intro _ rest _
      apply reads_bind (reads_basicString rest false)
      intro _ rest _
      exact reads_pure trivial
  . apply reads_bind (reads_looksAt rest _)
    intro _ rest _
    apply reads_ite
    . apply reads_bind (reads_multilineString rest true)
      intro _ rest _
      exact reads_pure trivial
    . apply reads_bind (reads_literalString rest)
      intro _ rest _
      exact reads_pure trivial
  . apply reads_bind (reads_advance rest 1)
    intro _ rest _
    apply reads_bind (reads_skipAllBlanks rest)
    intro _ rest _
    apply reads_bind (reads_looksAt rest _)
    intro _ rest _
    apply reads_ite
    . apply reads_bind (reads_advance rest 1)
      intro _ rest _
      exact reads_pure trivial
    . apply reads_bind (hitems rest [])
      intro _ rest _
      exact reads_pure trivial
  . apply reads_bind (reads_advance rest 1)
    intro _ rest _
    apply reads_bind (reads_skipBlanks rest)
    intro _ rest _
    apply reads_bind (reads_looksAt rest _)
    intro _ rest _
    apply reads_ite
    . apply reads_bind (reads_advance rest 1)
      intro _ rest _
      exact reads_pure trivial
    . apply reads_bind (hmembers rest [] [])
      intro _ rest _
      exact reads_pure trivial
  . apply reads_bind (reads_looksAt rest _)
    intro _ rest _
    apply reads_ite
    . apply reads_bind (reads_advance rest 4)
      intro _ rest _
      exact reads_pure trivial
    . apply reads_bind (reads_looksAt rest _)
      intro _ rest _
      apply reads_ite
      . apply reads_bind (reads_advance rest 5)
        intro _ rest _
        exact reads_pure trivial
      . apply reads_scalar
  . apply reads_fail

theorem reads_arrayItems_succ (hvalue : ∀ rest, Reads (value fuel) rest fun _ => True)
    (hitems : ∀ rest read, Reads (arrayItems fuel read) rest fun _ => True) (rest : List Char)
    (read : List Value) : Reads (arrayItems (fuel + 1) read) rest fun _ => True := by
  unfold arrayItems
  apply reads_bind (hvalue rest)
  intro _ rest _
  apply reads_bind (reads_skipAllBlanks rest)
  intro _ rest _
  apply reads_bind (reads_peek rest)
  intro _ rest _
  split
  . apply reads_bind (reads_advance rest 1)
    intro _ rest _
    exact reads_pure trivial
  . apply reads_bind (reads_advance rest 1)
    intro _ rest _
    apply reads_bind (reads_skipAllBlanks rest)
    intro _ rest _
    apply reads_bind (reads_looksAt rest _)
    intro _ rest _
    apply reads_ite
    . apply reads_bind (reads_advance rest 1)
      intro _ rest _
      exact reads_pure trivial
    . apply hitems
  . apply reads_fail

theorem reads_inlineMembers_succ (hkeyValue : ∀ rest, Reads (keyValue fuel) rest fun _ => True)
    (hmembers : ∀ rest marks table, Reads (inlineMembers fuel marks table) rest fun _ => True)
    (rest : List Char) (marks : List Mark) (table : Table Value) :
    Reads (inlineMembers (fuel + 1) marks table) rest fun _ => True := by
  unfold inlineMembers
  apply reads_bind (hkeyValue rest)
  intro _ rest _
  apply reads_guard
  simp only
  split
  . split
    . split
      . apply reads_bind (reads_skipBlanks rest)
        intro _ rest _
        apply reads_bind (reads_peek rest)
        intro _ rest _
        split
        . apply reads_bind (reads_advance rest 1)
          intro _ rest _
          exact reads_pure trivial
        . apply reads_bind (reads_advance rest 1)
          intro _ rest _
          apply reads_bind (reads_skipBlanks rest)
          intro _ rest _
          apply hmembers
        . apply reads_fail
      . apply reads_fail
    . apply reads_fail
  . apply reads_fail

theorem reads_keyValue_succ (hvalue : ∀ rest, Reads (value fuel) rest fun _ => True)
    (rest : List Char) : Reads (keyValue (fuel + 1)) rest fun _ => True := by
  unfold keyValue
  apply reads_bind (reads_key rest)
  intro _ rest _
  apply reads_bind (reads_looksAt rest _)
  intro _ rest _
  apply reads_guard
  apply reads_bind (reads_advance rest 1)
  intro _ rest _
  apply reads_bind (reads_skipBlanks rest)
  intro _ rest _
  apply reads_bind (hvalue rest)
  intro _ rest _
  exact reads_pure trivial

end Values

-- The readers of values call each other with less fuel, so they are followed together.
theorem reads_values (fuel : Nat) :
    (∀ rest, Reads (value fuel) rest fun _ => True) ∧
      (∀ rest read, Reads (arrayItems fuel read) rest fun _ => True) ∧
      (∀ rest marks table, Reads (inlineMembers fuel marks table) rest fun _ => True) ∧
      ∀ rest, Reads (keyValue fuel) rest fun _ => True := by
  induction fuel with
  | zero =>
    exact ⟨fun _ => reads_fail _, fun _ _ => reads_fail _, fun _ _ _ => reads_fail _,
      fun _ => reads_fail _⟩
  | succ fuel ih =>
    obtain ⟨hvalue, hitems, hmembers, hkeyValue⟩ := ih
    exact ⟨reads_value_succ hitems hmembers, reads_arrayItems_succ hvalue hitems,
      reads_inlineMembers_succ hkeyValue hmembers, reads_keyValue_succ hvalue⟩

theorem reads_keyValue (rest : List Char) (fuel : Nat) : Reads (keyValue fuel) rest fun _ => True :=
  (reads_values fuel).2.2.2 rest

theorem nodup_alter {lists : Bool} {change : Table Value → Option (Table Value)}
    (hchange : ∀ table table', (keys table).Nodup → change table = some table' → (keys table').Nodup)
    {key : Key} {table table' : Table Value} (htable : (keys table).Nodup)
    (h : alter lists change key table = some table') : (keys table').Nodup := by
  cases key with
  | nil => exact hchange table table' htable h
  | cons part key =>
    unfold alter at h
    split at h
    . next hlookup =>
      simp only [Option.bind_eq_bind, Option.bind_eq_some_iff, Option.pure_def,
        Option.some.injEq] at h
      obtain ⟨inner, -, rfl⟩ := h
      exact nodup_append_singleton htable hlookup _
    . simp only [Option.bind_eq_bind, Option.bind_eq_some_iff, Option.pure_def,
        Option.some.injEq] at h
      obtain ⟨inner, -, rfl⟩ := h
      exact nodup_set htable _ _
    . split at h
      . simp only [Option.bind_eq_bind, Option.bind_eq_some_iff, Option.pure_def,
          Option.some.injEq] at h
        obtain ⟨inner, -, rfl⟩ := h
        exact nodup_set htable _ _
      . simp at h
    . simp at h

section Statements

variable {state : State} (hstate : (keys state.contents).Nodup) (rest : List Char)

include hstate

theorem reads_openTable :
    Reads (openTable state) rest fun state' => (keys state'.contents).Nodup := by
  unfold openTable
  apply reads_bind (reads_advance rest 1)
  intro _ rest _
  apply reads_bind (reads_skipBlanks rest)
  intro _ rest _
  apply reads_bind (reads_key rest)
  intro _ rest _
  apply reads_guard
  split
  . next contents hcontents =>
    apply reads_bind (reads_looksAt rest _)
    intro _ rest _
    apply reads_guard
    apply reads_bind (reads_advance rest 1)
    intro _ rest _
    apply reads_pure
    apply nodup_alter _ hstate hcontents
    intro table table' htable hsome
    simp only [Option.some.injEq] at hsome
    exact hsome ▸ htable
  . apply reads_fail

theorem reads_openArrayTable :
    Reads (openArrayTable state) rest fun state' => (keys state'.contents).Nodup := by
  unfold openArrayTable
  apply reads_bind (reads_advance rest 2)
  intro _ rest _
  apply reads_bind (reads_skipBlanks rest)
  intro _ rest _
  apply reads_bind (reads_key rest)
  intro _ rest _
  apply reads_guard
  simp only
  split
  . next contents hcontents =>
    apply reads_bind (reads_looksAt rest _)
    intro _ rest _
    apply reads_guard
    apply reads_bind (reads_advance rest 2)
    intro _ rest _
    apply reads_pure
    apply nodup_alter _ hstate hcontents
    intro table table' htable hsome
    split at hsome
    . next hlookup =>
      simp only [Option.some.injEq] at hsome
      exact hsome ▸ nodup_append_singleton htable hlookup _
    . simp only [Option.some.injEq] at hsome
      exact hsome ▸ nodup_set htable _ _
    . simp at hsome
  . apply reads_fail

theorem reads_assign (fuel : Nat) :
    Reads (assign state fuel) rest fun state' => (keys state'.contents).Nodup := by
  unfold assign
  apply reads_bind (reads_keyValue rest fuel)
  intro _ rest _
  simp only
  split
  . apply reads_fail_bind
  . apply reads_guard
    split
    . next contents hcontents =>
      apply reads_pure
      apply nodup_alter _ hstate hcontents
      intro table table' htable hsome
      split at hsome
      . simp at hsome
      . next hlookup =>
        simp only [Option.some.injEq] at hsome
        exact hsome ▸ nodup_append_singleton htable (Option.not_isSome_iff_eq_none.mp hlookup) _
    . apply reads_fail

theorem reads_lineEnd {next : Parse State}
    (hnext : ∀ rest, Reads next rest fun state' => (keys state'.contents).Nodup) :
    Reads (do
      skipBlanks
      skipComment
      match ← peek with
      | none => return state
      | some '\n' =>
        advance 1
        next
      | some _ => fail .expectedLineEnd) rest fun state' => (keys state'.contents).Nodup := by
  apply reads_bind (reads_skipBlanks rest)
  intro _ rest _
  apply reads_bind (reads_skipComment rest)
  intro _ rest _
  apply reads_bind (reads_peek rest)
  intro _ rest _
  split
  . exact reads_pure hstate
  . apply reads_bind (reads_advance rest 1)
    intro _ rest _
    apply hnext
  . apply reads_fail

theorem reads_statements (fuel : Nat) :
    Reads (statements fuel state) rest fun state' => (keys state'.contents).Nodup := by
  induction fuel generalizing state rest with
  | zero => exact reads_pure hstate
  | succ fuel ih =>
    unfold statements
    apply reads_bind (reads_skipBlanks rest)
    intro _ rest _
    apply reads_bind (reads_peek rest)
    intro _ rest _
    split
    . exact reads_pure hstate
    . apply reads_bind (reads_advance rest 1)
      intro _ rest _
      exact ih hstate rest
    . apply reads_ite
      . apply reads_get_bind
        apply reads_bind (reads_assign hstate rest _)
        intro _ rest hstate
        exact reads_lineEnd hstate rest (ih hstate)
      apply reads_ite
      . have hsettled : (keys (settlePending state).contents).Nodup := hstate
        apply reads_bind (reads_looksAt rest _)
        intro _ rest _
        apply reads_ite
        . apply reads_bind (reads_openArrayTable hsettled rest)
          intro _ rest hstate
          exact reads_lineEnd hstate rest (ih hstate)
        . apply reads_bind (reads_openTable hsettled rest)
          intro _ rest hstate
          exact reads_lineEnd hstate rest (ih hstate)
      apply reads_ite
      . apply reads_fail_bind
      . exact reads_lineEnd hstate rest (ih hstate)

end Statements

theorem ends_statements (document : List Char) :
    Ends document (fun state => (keys state.contents).Nodup)
      ((statements (document.length + 1) {}).run document) := by
  have hempty : (keys ({} : State).contents).Nodup := List.nodup_nil
  exact reads_statements hempty document (document.length + 1)

theorem nodup_of_parse {text : List Char} {values : Table Value} (h : parse text = .ok values) :
    (keys values).Nodup := by
  have hends := ends_statements (unifyLines text)
  unfold parse at h
  simp only at h
  split at h
  . next hrun =>
    simp only [Except.ok.injEq] at h
    rw [hrun] at hends
    exact h ▸ hends.2
  . simp at h
  . simp at h

theorem holdsInteger_of_parse {text : List Char} {digits : Nat}
    (h : parse text = .error (.longInteger digits)) : HoldsInteger digits (unifyLines text) := by
  have hends := ends_statements (unifyLines text)
  unfold parse at h
  simp only at h
  split at h
  . simp at h
  . simp at h
  . next hrun =>
    simp only [Except.error.injEq, DocumentError.longInteger.injEq] at h
    rw [hrun] at hends
    exact h ▸ hends

end Toml

end ParadigmScan
