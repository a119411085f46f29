import ParadigmScan.Proofs.Tally.Sum
import ParadigmScan.Tally.Registers

/-!
This module contains what merging does to cells. A merge adds one count after the other and reads every count when
its turn comes. No count is read after it was changed, so a cell ends up with the sum of what both cells held before,
also if they are the same cell.
-/

namespace ParadigmScan

namespace Tally

@[simp]
theorem count_add (a b : Tally) (part : Part) :
    (a + b).count part = a.count part + b.count part := by
  cases part <;> rfl

theorem ext_count {a b : Tally} (h : ∀ part, a.count part = b.count part) : a = b :=
  Tally.ext (h .classes) (h .methods) (h .functions) (h .arrows)

theorem count_increase (t : Tally) (amount : Int) (changed part : Part) :
    (t.increase amount changed).count part =
      t.count part + if part = changed then amount else 0 := by
  cases changed <;> cases part <;> simp [increase, count]

theorem Part.mem_all (part : Part) : part ∈ all := by
  cases part <;> decide

theorem Part.nodup_all : all.Nodup := by
  decide

namespace Registers

variable {regs : Registers} {target source cell : Nat}

theorem getElem?_eq_some_tallyAt (h : cell < regs.cells.length) :
    regs.cells[cell]? = some (regs.tallyAt cell) := by
  simp [tallyAt, h]

theorem tallyAt_eq_of_getElem?_eq {regs' : Registers} (h : regs.cells[cell]? = regs'.cells[cell]?) :
    regs.tallyAt cell = regs'.tallyAt cell := by
  unfold tallyAt
  rw [List.getD_eq_getElem?_getD]
  rw [List.getD_eq_getElem?_getD]
  rw [h]

theorem getElem?_grow (regs : Registers) (value : Tally) (h : cell < regs.cells.length) :
    (regs.grow value).cells[cell]? = regs.cells[cell]? :=
  List.getElem?_append_left h

theorem tallyAt_grow (regs : Registers) (value : Tally) (h : cell < regs.cells.length) :
    (regs.grow value).tallyAt cell = regs.tallyAt cell :=
  tallyAt_eq_of_getElem?_eq (getElem?_grow regs value h)

@[simp]
theorem tallyAt_grow_length (regs : Registers) (value : Tally) :
    (regs.grow value).tallyAt regs.cells.length = value := by
  simp [tallyAt, grow]

@[simp]
theorem length_cells_grow (regs : Registers) (value : Tally) :
    (regs.grow value).cells.length = regs.cells.length + 1 :=
  List.length_append

@[simp]
theorem length_cells_mergePart (regs : Registers) (target source : Nat) (part : Part) :
    (regs.mergePart target source part).cells.length = regs.cells.length :=
  List.length_modify _ _ _

theorem getElem?_mergePart_of_ne (h : cell ≠ target) (part : Part) :
    (regs.mergePart target source part).cells[cell]? = regs.cells[cell]? := by
  simp [mergePart, h.symm]

theorem tallyAt_mergePart_self (h : target < regs.cells.length) (part : Part) :
    (regs.mergePart target source part).tallyAt target =
      (regs.tallyAt target).increase ((regs.tallyAt source).count part) part := by
  simp [mergePart, tallyAt, h]

theorem count_mergePart_of_ne {changed part : Part} (h : part ≠ changed) (cell : Nat) :
    ((regs.mergePart target source changed).tallyAt cell).count part =
      (regs.tallyAt cell).count part := by
  by_cases hcell : cell = target
  . subst hcell
    by_cases hlt : cell < regs.cells.length
    . rw [tallyAt_mergePart_self hlt]
      simp [count_increase, h]
    . rw [tallyAt_eq_of_getElem?_eq]
      simp [mergePart, hlt]
  . rw [tallyAt_eq_of_getElem?_eq (getElem?_mergePart_of_ne hcell changed)]

/--
The counts that were merged so far are sums, the others are as before. The invariant needs no case for a cell that is
merged into itself: a count that is still to be merged has not changed in any cell.
-/
theorem count_foldl_mergePart {parts : List Part} (hparts : parts.Nodup)
    (htarget : target < regs.cells.length) (part : Part) :
    ((parts.foldl (fun regs part => regs.mergePart target source part) regs).tallyAt target).count part =
      (regs.tallyAt target).count part + if part ∈ parts then (regs.tallyAt source).count part else 0 := by
  induction parts generalizing regs with
  | nil => simp
  | cons next parts ih =>
    rw [List.nodup_cons] at hparts
    rw [List.foldl_cons]
    rw [ih hparts.2 (by simpa using htarget)]
    by_cases hpart : part = next
    -- the count that is merged now is not merged again
    . subst hpart
      rw [if_neg hparts.1]
      rw [tallyAt_mergePart_self htarget]
      simp [count_increase]
    . rw [count_mergePart_of_ne hpart]
      rw [count_mergePart_of_ne hpart]
      simp [hpart]

theorem getElem?_mergeCell_of_ne (h : cell ≠ target) :
    (regs.mergeCell target source).cells[cell]? = regs.cells[cell]? := by
  unfold mergeCell
  generalize Part.all = parts
  induction parts generalizing regs with
  | nil => rfl
  | cons next parts ih =>
    rw [List.foldl_cons]
    rw [ih]
    exact getElem?_mergePart_of_ne h next

theorem length_cells_mergeCell (regs : Registers) (target source : Nat) :
    (regs.mergeCell target source).cells.length = regs.cells.length := by
  simp [mergeCell, Part.all]

theorem tallyAt_mergeCell_self (h : target < regs.cells.length) :
    (regs.mergeCell target source).tallyAt target = regs.tallyAt target + regs.tallyAt source := by
  apply ext_count
  intro part
  unfold mergeCell
  rw [count_foldl_mergePart Part.nodup_all h]
  rw [if_pos (Part.mem_all part)]
  rw [count_add]

theorem mergeCell_eq (h : target < regs.cells.length) :
    regs.mergeCell target source =
      { regs with cells := regs.cells.set target (regs.tallyAt target + regs.tallyAt source) } := by
  have hcells : (regs.mergeCell target source).cells =
      regs.cells.set target (regs.tallyAt target + regs.tallyAt source) := by
    apply List.ext_getElem?
    intro cell
    by_cases hcell : cell = target
    . subst hcell
      rw [getElem?_eq_some_tallyAt (by simpa [length_cells_mergeCell] using h)]
      rw [tallyAt_mergeCell_self h]
      rw [List.getElem?_set_self h]
    . rw [List.getElem?_set_ne (Ne.symm hcell)]
      exact getElem?_mergeCell_of_ne hcell
  rw [← hcells]
  rfl

theorem mergeCell_grow (value : Tally) (h : source < regs.cells.length) :
    (regs.grow value).mergeCell regs.cells.length source = regs.grow (value + regs.tallyAt source) := by
  rw [mergeCell_eq (by simp)]
  rw [tallyAt_grow_length]
  rw [tallyAt_grow regs value h]
  simp [grow]

theorem foldl_mergeCell_grow {sources : List Nat} (value : Tally)
    (h : ∀ source ∈ sources, source < regs.cells.length) :
    sources.foldl (·.mergeCell regs.cells.length ·) (regs.grow value) =
      regs.grow (value + Tally.sum (sources.map regs.tallyAt)) := by
  induction sources generalizing value with
  | nil => simp [sum_eq]
  | cons source sources ih =>
    rw [List.forall_mem_cons] at h
    rw [List.foldl_cons]
    rw [mergeCell_grow value h.1]
    rw [ih _ h.2]
    simp [sum_eq, add_assoc]

end Registers

end Tally

end ParadigmScan
