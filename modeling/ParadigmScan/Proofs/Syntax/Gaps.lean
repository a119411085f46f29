import ParadigmScan.Proofs.Syntax.Additivity
import ParadigmScan.Syntax.Preorder

/-!
This module contains which parts of a syntax tree can be taken out without any tally noticing. A node of a kind that
no rule speaks of can be replaced by its own children, and an anonymous node can be removed with everything below it:
a count that starts at any of the other nodes comes to the same as before.
-/

namespace ParadigmScan

namespace Tree

inductive Gap where
  | here (kind : String) (named : Bool) (before after : List Tree)
  | deeper (kind : String) (named : Bool) (before : List Tree) (gap : Gap) (after : List Tree)

namespace Gap

def fill (trees : List Tree) : Gap → Tree
  | here kind named before after => node kind named (before ++ trees ++ after)
  | deeper kind named before gap after => node kind named (before ++ gap.fill trees :: after)

def kind : Gap → String
  | here kind _ _ _ => kind
  | deeper _ _ _ gap _ => gap.kind

def named : Gap → Bool
  | here _ named _ _ => named
  | deeper _ _ _ gap _ => gap.named

def offset : Gap → Nat
  | here _ _ before _ => sizeList before + 1
  | deeper _ _ before gap _ => sizeList before + gap.offset + 1

end Gap

section Nodes

variable (parent : Option String)

theorem nodesList_append (trees more : List Tree) :
    nodesList parent (trees ++ more) = nodesList parent trees ++ nodesList parent more := by
  induction trees with
  | nil => rfl
  | cons tree trees ih => simp [nodesList, ih]

theorem nodesList_singleton (tree : Tree) : nodesList parent [tree] = tree.nodes parent := by
  simp [nodesList]

mutual

theorem length_nodes (parent : Option String) (tree : Tree) : (tree.nodes parent).length = tree.size := by
  cases tree with
  | node kind named children =>
    rw [nodes]
    rw [List.length_cons]
    rw [length_nodesList (some kind) children]
    rw [size]
    exact Nat.add_comm _ _

theorem length_nodesList (parent : Option String) (trees : List Tree) :
    (nodesList parent trees).length = sizeList trees := by
  cases trees with
  | nil => rfl
  | cons tree trees =>
    rw [nodesList]
    rw [List.length_append]
    rw [length_nodes parent tree]
    rw [length_nodesList parent trees]
    rw [sizeList]

end

theorem exists_of_getElem?_nodesList {trees : List Tree} {k : Nat} {entry : Option String × Tree}
    (h : (nodesList parent trees)[k]? = some entry) :
    ∃ before tree after j, trees = before ++ tree :: after ∧ k = sizeList before + j ∧
      (tree.nodes parent)[j]? = some entry := by
  induction trees generalizing k with
  | nil => simp [nodesList] at h
  | cons tree trees ih =>
    rw [nodesList] at h
    by_cases hlt : k < (tree.nodes parent).length
    . rw [List.getElem?_append_left hlt] at h
      exact ⟨[], tree, trees, k, rfl, by simp [sizeList], h⟩
    . rw [List.getElem?_append_right (by omega)] at h
      obtain ⟨before, found, after, j, rfl, hk, hfound⟩ := ih h
      refine ⟨tree :: before, found, after, j, rfl, ?_, hfound⟩
      rw [length_nodes] at hk hlt
      simp only [sizeList]
      omega

end Nodes

theorem exists_fill_of_getElem?_nodes {tree found : Tree} {parent above : Option String} {k : Nat}
    (h : (tree.nodes parent)[k + 1]? = some (above, found)) :
    ∃ gap : Gap, gap.fill [found] = tree ∧ gap.offset = k + 1 ∧ some gap.kind = above := by
  cases tree with
  | node kind named children =>
    rw [nodes] at h
    rw [List.getElem?_cons_succ] at h
    obtain ⟨before, child, after, j, rfl, rfl, hchild⟩ := exists_of_getElem?_nodesList _ h
    -- The node is a child of this one, or it stands in a gap of a child.
    cases j with
    | zero =>
      have hfound : (some kind, child) = (above, found) := by
        cases child with
        | node => simpa [nodes] using hchild
      obtain ⟨rfl, rfl⟩ := Prod.mk.inj hfound
      exact ⟨.here kind named before after, by simp [Gap.fill], rfl, rfl⟩
    | succ j =>
      have hlt : child.size < (node kind named (before ++ child :: after)).size := by
        apply size_lt_of_mem_children
        simp [children]
      obtain ⟨gap, rfl, hoffset, habove⟩ := exists_fill_of_getElem?_nodes hchild
      refine ⟨.deeper kind named before gap after, rfl, ?_, habove⟩
      simp only [Gap.offset]
      omega
termination_by tree.size

theorem getElem?_nodes_fill (gap : Gap) (tree : Tree) (parent : Option String) :
    ((gap.fill [tree]).nodes parent)[gap.offset]? = some (some gap.kind, tree) := by
  have hfirst : ∀ above, (tree.nodes above)[0]? = some (above, tree) := by
    intro above
    cases tree with
    | node => rfl
  induction gap generalizing parent with
  | here kind named before after =>
    simp only [Gap.fill, Gap.offset, Gap.kind, nodes, List.getElem?_cons_succ]
    rw [List.append_assoc]
    rw [nodesList_append]
    rw [List.getElem?_append_right (by rw [length_nodesList])]
    rw [length_nodesList]
    rw [Nat.sub_self]
    rw [List.singleton_append]
    rw [nodesList]
    rw [List.getElem?_append_left (by cases tree with | node => simp [nodes])]
    exact hfirst (some kind)
  | deeper kind named before gap after ih =>
    have hlt : gap.offset < ((gap.fill [tree]).nodes (some kind)).length :=
      (List.getElem?_eq_some_iff.mp (ih (some kind))).1
    simp only [Gap.fill, Gap.offset, Gap.kind, nodes, List.getElem?_cons_succ]
    rw [nodesList_append]
    rw [List.getElem?_append_right (by rw [length_nodesList]; omega)]
    rw [length_nodesList]
    rw [Nat.add_sub_cancel_left]
    rw [nodesList]
    rw [List.getElem?_append_left hlt]
    exact ih (some kind)

theorem getElem?_nodes_iff {tree found : Tree} {above : Option String} {k : Nat} :
    k ≠ 0 ∧ (tree.nodes none)[k]? = some (above, found) ↔
      ∃ gap : Gap, gap.fill [found] = tree ∧ gap.offset = k ∧ some gap.kind = above := by
  constructor
  . rintro ⟨hk, h⟩
    obtain ⟨k, rfl⟩ := Nat.exists_eq_succ_of_ne_zero hk
    exact exists_fill_of_getElem?_nodes h
  . rintro ⟨gap, rfl, rfl, rfl⟩
    refine ⟨?_, getElem?_nodes_fill gap found none⟩
    cases gap <;> simp [Gap.offset]

def startTallies (parent : Option String) (tree : Tree) : List Tally :=
  (tree.nodes parent).map fun start => start.2.tallyBelow start.1

def startTalliesList (parent : Option String) (trees : List Tree) : List Tally :=
  (nodesList parent trees).map fun start => start.2.tallyBelow start.1

theorem startTallies_node (parent : Option String) (kind : String) (named : Bool)
    (children : List Tree) :
    startTallies parent (node kind named children) =
      (node kind named children).tallyBelow parent :: startTalliesList (some kind) children := by
  simp only [startTallies, startTalliesList, nodes, List.map_cons]

theorem startTalliesList_append (parent : Option String) (trees more : List Tree) :
    startTalliesList parent (trees ++ more) =
      startTalliesList parent trees ++ startTalliesList parent more := by
  simp only [startTalliesList, nodesList_append, List.map_append]

theorem startTalliesList_cons (parent : Option String) (tree : Tree) (trees : List Tree) :
    startTalliesList parent (tree :: trees) =
      startTallies parent tree ++ startTalliesList parent trees := by
  simp only [startTalliesList, startTallies, nodesList, List.map_append]

theorem startTallies_congr_parent (tree : Tree) (parent parent' : Option String) :
    tree.startTallies parent = tree.startTallies parent' := by
  cases tree with
  | node kind named children =>
    rw [startTallies_node]
    rw [startTallies_node]
    rw [tallyBelow_congr_parent]

theorem startTalliesList_congr_parent (trees : List Tree) (parent parent' : Option String) :
    startTalliesList parent trees = startTalliesList parent' trees := by
  induction trees with
  | nil => rfl
  | cons tree trees ih =>
    rw [startTalliesList_cons]
    rw [startTalliesList_cons]
    rw [startTallies_congr_parent tree parent parent']
    rw [ih]

theorem startTalliesList_singleton (parent : Option String) (tree : Tree) :
    startTalliesList parent [tree] =
      tree.tallyBelow parent :: startTalliesList parent tree.children := by
  cases tree with
  | node kind named children =>
    rw [startTalliesList_cons]
    rw [startTallies_node]
    rw [startTalliesList_congr_parent children (some kind) parent]
    simp [startTalliesList, nodesList, Tree.children]

def Gap.Exchangeable (gap : Gap) (trees others : List Tree) : Prop :=
  ∀ inClass,
    totalBelow gap.kind gap.named inClass trees = totalBelow gap.kind gap.named inClass others

theorem alike_fill {gap : Gap} {trees others : List Tree} (h : gap.Exchangeable trees others) :
    Alike (gap.fill trees) (gap.fill others) := by
  induction gap with
  | here kind named before after =>
    apply Alike.node
    intro inClass
    have hinside : totalBelow kind named inClass trees = totalBelow kind named inClass others :=
      h inClass
    simp only [totalBelow_append]
    rw [hinside]
  | deeper kind named before gap after ih =>
    apply Alike.node
    intro inClass
    rw [totalBelow_append]
    rw [totalBelow_cons]
    rw [(ih h).totalBelow_singleton]
    rw [← totalBelow_cons]
    rw [← totalBelow_append]

theorem startTallies_fill (gap : Gap) (trees : List Tree) (parent : Option String) :
    ∃ front back, front.length = gap.offset ∧ ∀ others, gap.Exchangeable trees others →
      startTallies parent (gap.fill others) =
        front ++ startTalliesList (some gap.kind) others ++ back := by
  induction gap generalizing parent with
  | here kind named before after =>
    refine ⟨((Gap.here kind named before after).fill trees).tallyBelow parent ::
      startTalliesList (some kind) before, startTalliesList (some kind) after, ?_, ?_⟩
    . simp [startTalliesList, length_nodesList, Gap.offset]
    -- The node itself changes with what fills the gap, but not what it comes to.
    . intro others h
      rw [tallyBelow_eq_total]
      rw [(alike_fill h).total_eq]
      rw [Gap.fill]
      rw [startTallies_node]
      simp only [startTalliesList_append, List.cons_append]
      rfl
  | deeper kind named before gap after ih =>
    obtain ⟨front, back, hlength, hfill⟩ := ih (some kind)
    refine ⟨((Gap.deeper kind named before gap after).fill trees).tallyBelow parent ::
      startTalliesList (some kind) before ++ front,
      back ++ startTalliesList (some kind) after, ?_, ?_⟩
    . simp only [List.length_append, List.length_cons, hlength, startTalliesList, List.length_map,
        length_nodesList, Gap.offset]
      omega
    . intro others h
      rw [tallyBelow_eq_total]
      rw [(alike_fill h).total_eq]
      rw [Gap.fill]
      rw [startTallies_node]
      rw [startTalliesList_append]
      rw [startTalliesList_cons]
      rw [hfill others h]
      simp [Gap.kind, tallyBelow_eq_total]

def isKnownKind (kind : String) : Bool :=
  isClassKind kind || isMethodKind kind || kind == "method_signature" ||
    isFunctionDeclarationKind kind || isFunctionExpressionKind kind || isArrowKind kind ||
    isDecoratorKind kind

theorem own_of_not_isKnownKind {tree : Tree} (h : isKnownKind tree.kind = false)
    (parent : Option String) (inClass : Bool) : Frame.own { tree, parent, inClass } = 0 := by
  simp only [isKnownKind, Bool.or_eq_false_iff, beq_eq_false_iff_ne] at h
  obtain ⟨⟨⟨⟨⟨⟨hclass, hmethod⟩, hsignature⟩, hdeclaration⟩, hexpression⟩, harrow⟩, -⟩ := h
  simp [Frame.own, isMethod, hclass, hmethod, hsignature, hdeclaration, hexpression, harrow]
  rfl

theorem exchangeable_children {tree : Tree} (hnamed : tree.named = true)
    (hunknown : isKnownKind tree.kind = false)
    (hchildren : ∀ child ∈ tree.namedChildren,
      child.kind ≠ "decorator" ∧ child.kind ≠ "method_signature") (gap : Gap) :
    gap.Exchangeable [tree] tree.children := by
  intro inClass
  have hclass : isClassKind tree.kind = false := by simp_all [isKnownKind]
  have hdecorator : isDecoratorKind tree.kind = false := by simp_all [isKnownKind]
  rw [totalBelow_singleton]
  rw [if_pos hnamed]
  rw [Frame.total_eq]
  rw [own_of_not_isKnownKind hunknown]
  rw [zero_add]
  rw [next_of_not_class (by simp [hclass])]
  unfold totalBelow Frame.next
  rw [List.map_map]
  rw [List.map_map]
  congr 1
  apply List.map_congr_left
  intro child hchild
  obtain ⟨hplain, hsignature⟩ := hchildren child hchild
  -- A decorator would leave the class if the node above were one; a signature sees whether a class body is above it.
  have hflag : Frame.childInClass { tree := node gap.kind gap.named [], parent := none, inClass } tree =
      Frame.childInClass { tree := node gap.kind gap.named tree.children, parent := none, inClass }
        child := by
    have hchild : isDecoratorKind child.kind = false := by simp [isDecoratorKind, hplain]
    unfold Frame.childInClass
    rw [hdecorator]
    rw [hchild]
    rfl
  simp only [Function.comp_apply, hflag]
  exact Frame.total_congr_parent (.inr hsignature) _ _

theorem exchangeable_nil {tree : Tree} (hanonymous : tree.named = false) (gap : Gap) :
    gap.Exchangeable [tree] [] := by
  intro inClass
  rw [totalBelow_singleton]
  simp [hanonymous, totalBelow, Frame.next, namedChildren, children]

/--
A named node of an unknown kind can be replaced by its own children, unless one of them is a decorator or a signature:
of what the counts that start at the other nodes come to, nothing changes. An anonymous node can be removed with
everything below it. The nodes are taken in preorder, where a node is found after as many others as stand in front of
its gap.
-/
theorem startTallies_keep_without :
    (∀ (tree found : Tree) (above : Option String) (k : Nat),
      k ≠ 0 ∧ (tree.nodes none)[k]? = some (above, found) ↔
        ∃ gap : Gap, gap.fill [found] = tree ∧ gap.offset = k ∧ some gap.kind = above) ∧
    (∀ (gap : Gap) (tree : Tree), tree.named = true → isKnownKind tree.kind = false →
      (∀ child ∈ tree.namedChildren, child.kind ≠ "decorator" ∧ child.kind ≠ "method_signature") →
      startTallies none (gap.fill tree.children) =
        (startTallies none (gap.fill [tree])).eraseIdx gap.offset) ∧
    ∀ (gap : Gap) (tree : Tree), tree.named = false →
      startTallies none (gap.fill []) =
        (startTallies none (gap.fill [tree])).take gap.offset ++
          (startTallies none (gap.fill [tree])).drop (gap.offset + tree.size) := by
  refine ⟨fun tree found above k => getElem?_nodes_iff, ?_, ?_⟩
  . intro gap tree hnamed hunknown hchildren
    obtain ⟨front, back, hlength, hfill⟩ := startTallies_fill gap [tree] none
    rw [hfill _ (exchangeable_children hnamed hunknown hchildren gap)]
    rw [hfill _ fun _ => rfl]
    rw [← hlength]
    rw [startTalliesList_singleton]
    rw [List.append_assoc]
    rw [List.append_assoc]
    rw [List.eraseIdx_append_of_length_le (Nat.le_refl _)]
    rw [Nat.sub_self]
    rfl
  . intro gap tree hanonymous
    obtain ⟨front, back, hlength, hfill⟩ := startTallies_fill gap [tree] none
    have hsize : (startTalliesList (some gap.kind) [tree]).length = tree.size := by
      rw [startTalliesList, List.length_map, nodesList_singleton, length_nodes]
    rw [hfill _ (exchangeable_nil hanonymous gap)]
    rw [hfill _ fun _ => rfl]
    rw [← hlength, ← hsize]
    simp [startTalliesList, nodesList]

def bodilessGap : Gap :=
  .deeper "program" true [leaf "arrow_function"]
    (.here "class_declaration" true [node "class" false []] [leaf "type_identifier"]) []

def brokenBody : Tree :=
  mk "ERROR" [mk "class_body" [leaf "method_signature", leaf "arrow_function"], leaf "function"]

def strayMark : Tree := node ";" false [leaf "arrow_function"]

theorem startTallies_keep_without_bodilessGap :
    ((bodilessGap.fill [brokenBody]).nodes none)[4]? = some (some "class_declaration", brokenBody) ∧
      (brokenBody.named = true ∧ isKnownKind brokenBody.kind = false ∧
        ∀ child ∈ brokenBody.namedChildren,
          child.kind ≠ "decorator" ∧ child.kind ≠ "method_signature") ∧
      startTallies none (bodilessGap.fill brokenBody.children) =
        (startTallies none (bodilessGap.fill [brokenBody])).eraseIdx 4 ∧
      (bodilessGap.fill brokenBody.children).tallyBelow none =
        { classes := 1, methods := 1, functions := 0, arrows := 1 } ∧
      strayMark.named = false ∧
      startTallies none (bodilessGap.fill []) =
        (startTallies none (bodilessGap.fill [strayMark])).take 4 ++
          (startTallies none (bodilessGap.fill [strayMark])).drop 6 := by
  have hchildren : ∀ child ∈ brokenBody.namedChildren,
      child.kind ≠ "decorator" ∧ child.kind ≠ "method_signature" := by
    simp [brokenBody, mk, leaf, namedChildren, children, named, kind]
  obtain ⟨hplaces, hdissolve, hremove⟩ := startTallies_keep_without
  refine ⟨?_, ⟨rfl, by decide, hchildren⟩, ?_, by decide +kernel, rfl, ?_⟩
  . exact ((hplaces _ brokenBody _ 4).mpr ⟨bodilessGap, rfl, rfl, rfl⟩).2
  . exact hdissolve bodilessGap brokenBody rfl (by decide) hchildren
  . exact hremove bodilessGap strayMark rfl

end Tree

end ParadigmScan
