import ParadigmScan.Proofs.Syntax.Frames

/-!
This module contains how the tally of a tree is put together from the tallies of its parts. Outside of classes
the parts can be tallied on their own and added up, and nowhere does the order of the named children matter.
-/

namespace ParadigmScan

namespace Tree

namespace Frame

theorem own_congr_parent {tree : Tree} {inClass : Bool}
    (h : inClass = false ∨ tree.kind ≠ "method_signature") (parent parent' : Option String) :
    own { tree, parent, inClass } = own { tree, parent := parent', inClass } := by
  rcases h with rfl | h
  . simp [own]
  . simp [own, isMethod, h]

theorem total_congr_parent {tree : Tree} {inClass : Bool}
    (h : inClass = false ∨ tree.kind ≠ "method_signature") (parent parent' : Option String) :
    total { tree, parent, inClass } = total { tree, parent := parent', inClass } := by
  rw [total_eq]
  rw [own_congr_parent h parent parent']
  rw [total_eq { tree, parent := parent', inClass }]
  rfl

end Frame

theorem tallyBelow_congr_parent (tree : Tree) (parent parent' : Option String) :
    tree.tallyBelow parent = tree.tallyBelow parent' :=
  Frame.total_congr_parent (.inl rfl) parent parent'

def totalBelow (kind : String) (named inClass : Bool) (trees : List Tree) : Tally :=
  ((Frame.mk (node kind named trees) none inClass).next.map Frame.total).sum

theorem total_node (kind : String) (named : Bool) (children : List Tree) (parent : Option String)
    (inClass : Bool) :
    Frame.total { tree := node kind named children, parent, inClass } =
      Frame.own { tree := node kind named [], parent, inClass } +
        totalBelow kind named inClass children := by
  rw [Frame.total_eq]
  rfl

section Below

variable (kind : String) (named inClass : Bool)

theorem totalBelow_append (trees more : List Tree) :
    totalBelow kind named inClass (trees ++ more) =
      totalBelow kind named inClass trees + totalBelow kind named inClass more := by
  simp only [totalBelow, Frame.next, namedChildren, children, List.filter_append, List.map_append,
    List.sum_append]
  rfl

theorem totalBelow_singleton (tree : Tree) :
    totalBelow kind named inClass [tree] =
      if tree.named = true then
        Frame.total {
          tree
          parent := some kind
          inClass := Frame.childInClass { tree := node kind named [], parent := none, inClass } tree }
      else 0 := by
  unfold totalBelow Frame.next namedChildren
  split
  . next h =>
    simp only [children, List.filter_cons, h, List.filter_nil, if_true, List.map_cons, List.map_nil,
      List.sum_singleton]
    rfl
  . next h => simp [children, h]

theorem totalBelow_cons (tree : Tree) (trees : List Tree) :
    totalBelow kind named inClass (tree :: trees) =
      totalBelow kind named inClass [tree] + totalBelow kind named inClass trees :=
  totalBelow_append kind named inClass [tree] trees

theorem totalBelow_perm {trees others : List Tree}
    (h : (trees.filter (·.named)).Perm (others.filter (·.named))) :
    totalBelow kind named inClass trees = totalBelow kind named inClass others := by
  unfold totalBelow
  apply List.Perm.sum_eq
  apply List.Perm.map
  exact h.map _

end Below

/--
Two trees that look the same from above and come to the same wherever they stand.
-/
structure Alike (tree other : Tree) : Prop where
  kind_eq : tree.kind = other.kind
  named_eq : tree.named = other.named
  total_eq : ∀ parent inClass,
    Frame.total { tree, parent, inClass } = Frame.total { tree := other, parent, inClass }

theorem Alike.node {kind : String} {named : Bool} {children others : List Tree}
    (h : ∀ inClass,
      totalBelow kind named inClass children = totalBelow kind named inClass others) :
    Alike (node kind named children) (node kind named others) where
  kind_eq := rfl
  named_eq := rfl
  total_eq parent inClass := by
    rw [total_node]
    rw [total_node]
    rw [h]

theorem Alike.totalBelow_singleton {tree other : Tree} (h : Alike tree other) (kind : String)
    (named inClass : Bool) :
    totalBelow kind named inClass [tree] = totalBelow kind named inClass [other] := by
  rw [Tree.totalBelow_singleton]
  rw [Tree.totalBelow_singleton]
  simp only [Frame.childInClass, h.kind_eq, h.named_eq, h.total_eq]

theorem totalBelow_congr {trees others : List Tree} (h : List.Forall₂ Alike trees others)
    (kind : String) (named inClass : Bool) :
    totalBelow kind named inClass trees = totalBelow kind named inClass others := by
  induction h with
  | nil => rfl
  | cons htree _ ih =>
    rw [totalBelow_cons]
    rw [htree.totalBelow_singleton]
    rw [ih]
    rw [← totalBelow_cons]

theorem size_lt_of_mem_children {tree child : Tree} (h : child ∈ tree.children) :
    child.size < tree.size := by
  cases tree with
  | node kind named children =>
    have hle : child.size ≤ sizeList children := size_le_sizeList_of_mem h
    simp only [size]
    omega

/--
The same tree, except that the named children of any of its nodes may come in another order.
-/
inductive Reordered : Tree → Tree → Prop
  | node {kind : String} {named : Bool} {children between others : List Tree}
      (below : List.Forall₂ Reordered children between)
      (named_perm : (between.filter (·.named)).Perm (others.filter (·.named)))
      (anonymous_eq : (between.filter (!·.named)) = others.filter (!·.named)) :
      Reordered (.node kind named children) (.node kind named others)

theorem Reordered.refl (tree : Tree) : Reordered tree tree := by
  cases tree with
  | node kind named children =>
    refine .node (List.forall₂_same.mpr ?_) (.refl _) rfl
    intro child hchild
    have hlt : child.size < (Tree.node kind named children).size := size_lt_of_mem_children hchild
    exact Reordered.refl child
termination_by tree.size

theorem Reordered.alike {tree other : Tree} (h : Reordered tree other) : Alike tree other := by
  cases h with
  | @node kind named children between others below named_perm anonymous_eq =>
    apply Alike.node
    intro inClass
    have hmem : List.Forall₂ (fun child child' => child ∈ children ∧ Reordered child child')
        children between := by
      rw [List.forall₂_and_left]
      exact ⟨fun _ hchild => hchild, below⟩
    have hbetween : List.Forall₂ Alike children between := by
      refine hmem.imp ?_
      rintro child child' ⟨hchild, hreordered⟩
      have hlt : child.size < (Tree.node kind named children).size :=
        size_lt_of_mem_children hchild
      exact hreordered.alike
    -- The children are exchanged in place first; then the named ones change places.
    rw [totalBelow_congr hbetween]
    exact totalBelow_perm kind named inClass named_perm
termination_by tree.size

def freestanding (tree : Tree) : Tally :=
  if tree.named && (isFunctionDeclarationKind tree.kind || isFunctionExpressionKind tree.kind) then
    { functions := 1 }
  else if tree.named && isArrowKind tree.kind then
    { arrows := 1 }
  else
    {}

theorem own_eq_freestanding {tree : Tree}
    (h : ¬ (tree.named = true ∧ isClassKind tree.kind = true)) (parent : Option String) :
    Frame.own { tree, parent, inClass := false } = tree.freestanding := by
  grind [Frame.own, freestanding]

theorem next_of_not_class {tree : Tree}
    (h : ¬ (tree.named = true ∧ isClassKind tree.kind = true)) (parent : Option String)
    (inClass : Bool) :
    Frame.next { tree, parent, inClass } =
      tree.namedChildren.map fun child => { tree := child, parent := some tree.kind, inClass } := by
  unfold Frame.next Frame.childInClass
  apply List.map_congr_left
  intro child _
  grind

/--
Outside of classes the tally of a node is what the node adds by itself and the tallies of its named children,
each taken on its own. The order of named children is of no importance, at whatever depth they stand.
-/
theorem tallyBelow_additive_order_blind :
    (∀ (tree : Tree) (parent : Option String),
      ¬ (tree.named = true ∧ isClassKind tree.kind = true) →
      tree.tallyBelow parent =
        tree.freestanding + Tally.sum (tree.namedChildren.map (tallyBelow (some tree.kind)))) ∧
    ∀ (tree other : Tree) (parent parent' : Option String), Reordered tree other →
      tree.tallyBelow parent = other.tallyBelow parent' := by
  constructor
  . intro tree parent hclass
    rw [tallyBelow_eq_total]
    rw [Frame.total_eq]
    rw [own_eq_freestanding hclass]
    rw [next_of_not_class hclass]
    rw [List.map_map]
    rw [Tally.sum_eq]
    rfl
  . intro tree other parent parent' hreordered
    rw [tallyBelow_eq_total]
    rw [hreordered.alike.total_eq]
    exact tallyBelow_congr_parent other parent parent'

def decoratedSource : Tree :=
  mk "program" [
    leaf "function_declaration",
    mk "class_declaration" [
      mk "decorator" [leaf "arrow_function"],
      node "class" false [],
      mk "class_body" [leaf "method_definition", leaf "method_signature"]]]

def turnedSource : Tree :=
  mk "program" [
    mk "class_declaration" [
      mk "class_body" [leaf "method_signature", leaf "method_definition"],
      node "class" false [],
      mk "decorator" [leaf "arrow_function"]],
    leaf "function_declaration"]

theorem reordered_decoratedSource : Reordered decoratedSource turnedSource := by
  have hbody : Reordered (mk "class_body" [leaf "method_definition", leaf "method_signature"])
      (mk "class_body" [leaf "method_signature", leaf "method_definition"]) :=
    .node (.cons (.refl _) (.cons (.refl _) .nil)) (.swap _ _ _) rfl
  have hclass : Reordered
      (mk "class_declaration" [
        mk "decorator" [leaf "arrow_function"],
        node "class" false [],
        mk "class_body" [leaf "method_definition", leaf "method_signature"]])
      (mk "class_declaration" [
        mk "class_body" [leaf "method_signature", leaf "method_definition"],
        node "class" false [],
        mk "decorator" [leaf "arrow_function"]]) :=
    .node (.cons (.refl _) (.cons (.refl _) (.cons hbody .nil))) (.swap _ _ _) rfl
  exact .node (.cons (.refl _) (.cons hclass .nil)) (.swap _ _ _) rfl

theorem tallyBelow_additive_order_blind_decoratedSource :
    ¬ (decoratedSource.named = true ∧ isClassKind decoratedSource.kind = true) ∧
      decoratedSource.tallyBelow none = decoratedSource.freestanding +
        Tally.sum (decoratedSource.namedChildren.map (tallyBelow (some "program"))) ∧
      Reordered decoratedSource turnedSource ∧
      decoratedSource.tallyBelow none = turnedSource.tallyBelow none ∧
      turnedSource.tallyBelow none = { classes := 1, methods := 2, functions := 1, arrows := 1 } := by
  have hclass : ¬ (decoratedSource.named = true ∧ isClassKind decoratedSource.kind = true) := by
    decide
  refine ⟨hclass, ?_, reordered_decoratedSource, ?_, by decide +kernel⟩
  . exact tallyBelow_additive_order_blind.1 decoratedSource none hclass
  . exact tallyBelow_additive_order_blind.2 _ _ none none reordered_decoratedSource

end Tree

end ParadigmScan
