import Mathlib.Data.List.Basic

/-!
This module contains lists that hold elements of another list in the order in which they first occur there. Such a list
comes about when the other list is gone through and an element is added at the end when it is met for the first time.
-/

namespace ParadigmScan

variable {α : Type} [BEq α]

/--
The elements of `kept` are elements of `used`, in the order in which they first occur there.
-/
structure ByFirstUse (kept used : List α) : Prop where
  subset : ∀ element ∈ kept, element ∈ used
  ordered : kept.Pairwise fun first second => used.idxOf first < used.idxOf second

namespace ByFirstUse

variable {kept used : List α}

theorem nil : ByFirstUse ([] : List α) [] :=
  ⟨by simp, .nil⟩

theorem nodup (h : ByFirstUse kept used) : kept.Nodup := by
  refine h.ordered.imp ?_
  rintro first _ hlt rfl
  exact Nat.lt_irrefl _ hlt

variable [LawfulBEq α]

theorem idxOf_concat (h : ByFirstUse kept used) (next : α) {element : α} (helement : element ∈ kept) :
    (used ++ [next]).idxOf element = used.idxOf element :=
  List.idxOf_append_of_mem (h.subset element helement)

theorem concat (h : ByFirstUse kept used) (next : α) : ByFirstUse kept (used ++ [next]) where
  subset element helement := List.mem_append_left _ (h.subset element helement)
  ordered := by
    refine h.ordered.imp_of_mem ?_
    intro first second hfirst hsecond hlt
    rw [h.idxOf_concat next hfirst]
    rw [h.idxOf_concat next hsecond]
    exact hlt

theorem concat_new (h : ByFirstUse kept used) {next : α} (hnew : next ∉ used) :
    ByFirstUse (kept ++ [next]) (used ++ [next]) where
  subset := by
    intro element helement
    rw [List.mem_append] at helement ⊢
    exact helement.imp_left (h.subset element)
  ordered := by
    rw [List.pairwise_append]
    refine ⟨(h.concat next).ordered, List.pairwise_singleton _ _, ?_⟩
    intro element helement last hlast
    have hlt := List.idxOf_lt_length_of_mem (h.subset element helement)
    rw [List.mem_singleton.mp hlast]
    rw [h.idxOf_concat next helement]
    rw [List.idxOf_append_of_notMem hnew]
    omega

end ByFirstUse

end ParadigmScan
