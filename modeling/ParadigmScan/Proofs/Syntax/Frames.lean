import ParadigmScan.Proofs.Tally.Sum
import ParadigmScan.Syntax.Count

/-!
This module contains what the walk over frames adds up to: the frames that are still to be visited do not
influence each other, so the total of a node is what the node adds itself and the totals of its named
children.
-/

namespace ParadigmScan

namespace Tree

theorem isClassKind_of_isMethod {parent : Option String} {kind : String}
    (h : isMethod parent kind = true) : isClassKind kind = false := by
  simp only [isMethod, isMethodKind, Bool.or_eq_true, beq_iff_eq, Bool.and_eq_true] at h
  rcases h with (rfl | rfl) | ⟨rfl, -⟩ <;> decide

theorem others_of_isFunctionDeclarationKind {kind : String}
    (h : isFunctionDeclarationKind kind = true) :
    isClassKind kind = false ∧ ∀ parent, isMethod parent kind = false := by
  simp only [isFunctionDeclarationKind, Bool.or_eq_true, beq_iff_eq] at h
  rcases h with (rfl | rfl) | rfl <;> simp [isClassKind, isMethod, isMethodKind]

theorem others_of_isFunctionExpressionKind {kind : String}
    (h : isFunctionExpressionKind kind = true) :
    isClassKind kind = false ∧ isFunctionDeclarationKind kind = false := by
  simp only [isFunctionExpressionKind, Bool.or_eq_true, beq_iff_eq] at h
  rcases h with (rfl | rfl) | rfl <;> decide

theorem others_of_isArrowKind {kind : String} (h : isArrowKind kind = true) :
    isClassKind kind = false ∧ isFunctionDeclarationKind kind = false ∧
      isFunctionExpressionKind kind = false := by
  simp only [isArrowKind, beq_iff_eq] at h
  subst h
  decide

theorem size_le_sizeList_of_mem {tree : Tree} {trees : List Tree} (h : tree ∈ trees) :
    tree.size ≤ sizeList trees := by
  induction trees with
  | nil => simp at h
  | cons head trees ih =>
    simp only [sizeList]
    cases List.mem_cons.mp h with
    | inl heq =>
      rw [heq]
      omega
    | inr hmem =>
      specialize ih hmem
      omega

theorem size_lt_of_mem_namedChildren {tree child : Tree} (h : child ∈ tree.namedChildren) :
    child.size < tree.size := by
  have hle := size_le_sizeList_of_mem h
  have hlt := sizeList_namedChildren_lt tree
  omega

theorem tallyFrames_append (left right : List Frame) (start : Tally) :
    tallyFrames (left ++ right) start = tallyFrames right (tallyFrames left start) := by
  fun_induction tallyFrames left start with
  | case1 start => simp
  | case2 start frame rest ih =>
    rw [List.cons_append]
    rw [tallyFrames]
    rw [← List.append_assoc]
    exact ih

theorem tallyFrames_add (frames : List Frame) (before start : Tally) :
    tallyFrames frames (before + start) = before + tallyFrames frames start := by
  fun_induction tallyFrames frames start with
  | case1 start => simp [tallyFrames]
  | case2 start frame rest ih =>
    rw [tallyFrames]
    rw [add_assoc]
    exact ih

namespace Frame

def total (frame : Frame) : Tally := tallyFrames [frame] 0

end Frame

theorem tallyFrames_eq_sum (frames : List Frame) (start : Tally) :
    tallyFrames frames start = start + (frames.map Frame.total).sum := by
  induction frames generalizing start with
  | nil => simp [tallyFrames]
  | cons frame frames ih =>
    have hsplit : tallyFrames (frame :: frames) start
        = tallyFrames frames (tallyFrames [frame] start) := tallyFrames_append [frame] frames start
    have hstart : tallyFrames [frame] start = start + frame.total := by
      have := tallyFrames_add [frame] start 0
      rwa [add_zero] at this
    rw [hsplit]
    rw [hstart]
    rw [ih]
    rw [List.map_cons]
    rw [List.sum_cons]
    rw [add_assoc]

namespace Frame

theorem total_eq (frame : Frame) : frame.total = frame.own + (frame.next.map total).sum := by
  unfold total
  rw [tallyFrames]
  rw [List.append_nil]
  rw [tallyFrames_eq_sum]
  rw [zero_add]
  rw [List.map_reverse]
  rw [List.sum_reverse]
  rfl

theorem size_lt_of_mem_next {frame child : Frame} (h : child ∈ frame.next) :
    child.tree.size < frame.tree.size := by
  obtain ⟨tree, htree, rfl⟩ := List.mem_map.mp h
  exact size_lt_of_mem_namedChildren htree

theorem classes_own (frame : Frame) :
    frame.own.classes =
      if frame.tree.named = true ∧ isClassKind frame.tree.kind = true then 1 else 0 := by
  grind [own]

theorem methods_own (frame : Frame) :
    frame.own.methods =
      if frame.tree.named = true ∧ frame.inClass = true ∧
        isMethod frame.parent frame.tree.kind = true then 1 else 0 := by
  have := @isClassKind_of_isMethod frame.parent frame.tree.kind
  grind [own]

theorem functions_own (frame : Frame) :
    frame.own.functions =
      if frame.tree.named = true ∧ (isFunctionDeclarationKind frame.tree.kind = true ∨
        frame.inClass = false ∧ isFunctionExpressionKind frame.tree.kind = true) then 1 else 0 := by
  have := @others_of_isFunctionDeclarationKind frame.tree.kind
  have := @others_of_isFunctionExpressionKind frame.tree.kind
  grind [own]

theorem arrows_own (frame : Frame) :
    frame.own.arrows =
      if frame.tree.named = true ∧ frame.inClass = false ∧ isArrowKind frame.tree.kind = true
        then 1 else 0 := by
  have := @others_of_isArrowKind frame.tree.kind
  grind [own]

end Frame

theorem tallyBelow_eq_total (parent : Option String) (tree : Tree) :
    tree.tallyBelow parent = Frame.total { tree, parent, inClass := false } := rfl

end Tree

end ParadigmScan
