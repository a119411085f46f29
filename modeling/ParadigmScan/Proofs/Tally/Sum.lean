import Mathlib.Algebra.BigOperators.Group.List.Basic
import Mathlib.Data.Int.Basic
import ParadigmScan.Tally

/-!
This module contains the algebra of tallies: under field by field addition they are a commutative
monoid, and the sum of a list of tallies is the one of that monoid.
-/

namespace ParadigmScan

namespace Tally

@[ext]
theorem ext {a b : Tally} (hclasses : a.classes = b.classes) (hmethods : a.methods = b.methods)
    (hfunctions : a.functions = b.functions) (harrows : a.arrows = b.arrows) : a = b := by
  cases a
  cases b
  simp only [mk.injEq]
  exact ⟨hclasses, hmethods, hfunctions, harrows⟩

instance : Zero Tally := ⟨zero⟩

@[simp]
theorem classes_zero : (0 : Tally).classes = 0 := rfl

@[simp]
theorem methods_zero : (0 : Tally).methods = 0 := rfl

@[simp]
theorem functions_zero : (0 : Tally).functions = 0 := rfl

@[simp]
theorem arrows_zero : (0 : Tally).arrows = 0 := rfl

instance : AddCommMonoid Tally where
  add_assoc a b c := by ext <;> simp [Int.add_assoc]
  zero_add a := by ext <;> simp
  add_zero a := by ext <;> simp
  add_comm a b := by ext <;> simp [Int.add_comm]
  nsmul := nsmulRec

theorem sum_eq (tallies : List Tally) : Tally.sum tallies = tallies.sum := by
  unfold Tally.sum
  rw [List.sum_eq_foldl]
  rfl

end Tally

end ParadigmScan
