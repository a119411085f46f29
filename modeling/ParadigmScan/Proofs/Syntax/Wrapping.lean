import Mathlib.Tactic.Ring
import ParadigmScan.Proofs.Syntax.Additivity
import ParadigmScan.Proofs.Syntax.Places

/-!
This module contains what changes when code is moved into the body of a class: function expressions and arrow
functions are not counted any more, methods and signatures of methods are, and everything else stays the same.
-/

namespace ParadigmScan

namespace Tree

theorem places_named_and {tree : Tree} (h : tree.named = true) (q : Place → Tree → Prop) :
    (tree.places fun place node => node.named = true ∧ q place node) = tree.places q := by
  let frame : Frame := { tree, parent := none, inClass := false }
  have hnamed : ∀ place node, tree.atPlace? place = some node → node.named = true := by
    intro place node hnode
    have hframe : (frame.atPlace? place).map (·.tree) = some node := by
      rw [Frame.map_tree_atPlace?]
      exact hnode
    obtain ⟨found, hfound, rfl⟩ := Option.map_eq_some_iff.mp hframe
    cases place with
    | nil =>
      simp only [Frame.atPlace?, Option.some.injEq] at hfound
      rw [← hfound]
      exact h
    | cons i place => exact Frame.named_of_atPlace?_cons hfound
  ext place
  simp only [places, Set.mem_ofPred_eq]
  grind

namespace Frame

theorem inClass_of_atPlace? {frame found : Frame} {place : Place} (hclass : frame.inClass = true)
    (h : frame.atPlace? place = some found) : found.inClass = true :=
  (inClass_atPlace?_iff h).mpr (.inl hclass)

end Frame

section Inside

variable (parent : Option String) (tree : Tree)

theorem methods_total_inside :
    (Frame.total { tree, parent, inClass := true }).methods =
      (tree.places fun place node => node.named = true ∧
        (isMethodKind node.kind = true ∨ node.kind = "method_signature" ∧
          parentKind? parent tree place = some "class_body")).ncard := by
  let field : Tally →+ Int := ⟨⟨Tally.methods, rfl⟩, Tally.methods_add⟩
  apply total_eq_ncard_places parent tree true field
    (fun frame => frame.tree.named = true ∧ frame.inClass = true ∧
      isMethod frame.parent frame.tree.kind = true)
  . exact Frame.methods_own
  . intro place found h
    rw [Frame.inClass_of_atPlace? rfl h]
    rw [Frame.parent_atPlace? h]
    simp [isMethod]

theorem functions_total_inside :
    (Frame.total { tree, parent, inClass := true }).functions =
      (tree.places fun _ node =>
        node.named = true ∧ isFunctionDeclarationKind node.kind = true).ncard := by
  let field : Tally →+ Int := ⟨⟨Tally.functions, rfl⟩, Tally.functions_add⟩
  apply total_eq_ncard_places parent tree true field
    (fun frame => frame.tree.named = true ∧ (isFunctionDeclarationKind frame.tree.kind = true ∨
      frame.inClass = false ∧ isFunctionExpressionKind frame.tree.kind = true))
  . exact Frame.functions_own
  . intro place found h
    rw [Frame.inClass_of_atPlace? rfl h]
    simp

theorem arrows_total_inside : (Frame.total { tree, parent, inClass := true }).arrows = 0 := by
  let field : Tally →+ Int := ⟨⟨Tally.arrows, rfl⟩, Tally.arrows_add⟩
  have hfield : field (Frame.total { tree, parent, inClass := true }) =
      (tree.places fun _ _ => False).ncard := by
    apply total_eq_ncard_places parent tree true field
      (fun frame => frame.tree.named = true ∧ frame.inClass = false ∧
        isArrowKind frame.tree.kind = true)
    . exact Frame.arrows_own
    . intro place found h
      rw [Frame.inClass_of_atPlace? rfl h]
      simp
  have hnowhere : (tree.places fun _ _ => False) = ∅ := by simp [places]
  rw [hnowhere] at hfield
  rw [Set.ncard_empty] at hfield
  exact hfield

end Inside

/--
How many nodes of trees that stand below a node of kind `parent` have a property. The property sees the kind of
the node above as well.
-/
noncomputable def nodeCount (parent : Option String) (forest : List Tree)
    (p : Option String → Tree → Prop) : Nat :=
  (forest.map fun tree =>
    (tree.places fun place node => p (parentKind? parent tree place) node).ncard).sum

theorem nodeCount_cons (parent : Option String) (tree : Tree) (forest : List Tree)
    (p : Option String → Tree → Prop) :
    nodeCount parent (tree :: forest) p =
      (tree.places fun place node => p (parentKind? parent tree place) node).ncard +
        nodeCount parent forest p :=
  rfl

def Declares (_ : Option String) (node : Tree) : Prop := isFunctionDeclarationKind node.kind = true

def IsPlainMethod (_ : Option String) (node : Tree) : Prop := isMethodKind node.kind = true

def IsMemberSignature (above : Option String) (node : Tree) : Prop :=
  node.kind = "method_signature" ∧ above = some "class_body"

theorem not_isMemberSignature_of_isPlainMethod {above : Option String} {node : Tree}
    (h : IsPlainMethod above node) : ¬ IsMemberSignature above node := by
  rintro ⟨hkind, -⟩
  unfold IsPlainMethod at h
  rw [hkind] at h
  contradiction

/--
How the tally of trees in a class body compares with the one of the same trees outside of classes.
-/
structure Suppresses (forest : List Tree) (inside apart : Tally) : Prop where
  classes_eq : inside.classes = apart.classes
  arrows_eq : inside.arrows = 0
  functions_eq : inside.functions = nodeCount (some "class_body") forest Declares
  functions_le : inside.functions ≤ apart.functions
  methods_eq : inside.methods = nodeCount (some "class_body") forest IsPlainMethod +
    nodeCount (some "class_body") forest IsMemberSignature
  methods_ge : apart.methods ≤ inside.methods

section Comparison

variable {tree : Tree} (h : tree.named = true) (outer : Option String)

include h

theorem functions_inside_eq :
    (Frame.total { tree, parent := some "class_body", inClass := true }).functions =
      nodeCount (some "class_body") [tree] Declares := by
  rw [functions_total_inside]
  rw [places_named_and h]
  rfl

theorem methods_inside_eq :
    (Frame.total { tree, parent := some "class_body", inClass := true }).methods =
      nodeCount (some "class_body") [tree] IsPlainMethod +
        nodeCount (some "class_body") [tree] IsMemberSignature := by
  have hsplit : (tree.places fun place node =>
      IsPlainMethod (parentKind? (some "class_body") tree place) node ∨
        IsMemberSignature (parentKind? (some "class_body") tree place) node).ncard =
      nodeCount (some "class_body") [tree] IsPlainMethod +
        nodeCount (some "class_body") [tree] IsMemberSignature :=
    ncard_places_or fun _ _ => not_isMemberSignature_of_isPlainMethod
  rw [methods_total_inside]
  rw [places_named_and h]
  rw [← Nat.cast_add]
  rw [← hsplit]
  rfl

omit h in
theorem functions_inside_le :
    (Frame.total { tree, parent := some "class_body", inClass := true }).functions ≤
      (tree.tallyBelow outer).functions := by
  rw [functions_total_inside]
  rw [functions_tallyBelow]
  omega

theorem methods_inside_ge :
    (tree.tallyBelow outer).methods ≤
      (Frame.total { tree, parent := some "class_body", inClass := true }).methods := by
  rw [methods_tallyBelow]
  rw [methods_total_inside]
  rw [places_named_and h]
  rw [Nat.cast_le]
  apply Set.ncard_le_ncard _ (finite_places tree _)
  rintro place ⟨node, hnode, hclass, hmethod⟩
  refine ⟨node, hnode, ?_⟩
  -- Only the start could tell the two surroundings apart, and it does not lie in a class of its own.
  have hne : place ≠ [] := by
    rintro rfl
    exact not_inClass_nil tree hclass
  simpa [parentKind?, hne] using hmethod

end Comparison

theorem suppresses_singleton {tree : Tree} (h : tree.named = true) (outer : Option String) :
    Suppresses [tree] (Frame.total { tree, parent := some "class_body", inClass := true })
      (tree.tallyBelow outer) where
  classes_eq := by
    rw [classes_total]
    rw [classes_tallyBelow]
  arrows_eq := arrows_total_inside (some "class_body") tree
  functions_eq := functions_inside_eq h
  functions_le := functions_inside_le outer
  methods_eq := methods_inside_eq h
  methods_ge := methods_inside_ge h outer

theorem Suppresses.cons {tree : Tree} {forest : List Tree} {first first' rest rest' : Tally}
    (hfirst : Suppresses [tree] first first') (hrest : Suppresses forest rest rest') :
    Suppresses (tree :: forest) (first + rest) (first' + rest') := by
  have hcons : ∀ p, nodeCount (some "class_body") (tree :: forest) p =
      nodeCount (some "class_body") [tree] p + nodeCount (some "class_body") forest p :=
    nodeCount_cons (some "class_body") tree forest
  constructor
  . rw [Tally.classes_add, Tally.classes_add, hfirst.classes_eq, hrest.classes_eq]
  . rw [Tally.arrows_add, hfirst.arrows_eq, hrest.arrows_eq, add_zero]
  . rw [Tally.functions_add, hfirst.functions_eq, hrest.functions_eq, hcons, Nat.cast_add]
  . exact Int.add_le_add hfirst.functions_le hrest.functions_le
  . rw [Tally.methods_add, hfirst.methods_eq, hrest.methods_eq, hcons, hcons]
    push_cast
    ring
  . exact Int.add_le_add hfirst.methods_ge hrest.methods_ge

theorem suppresses_forest {forest : List Tree} (h : ∀ tree ∈ forest, tree.named = true)
    (outer : Option String) :
    Suppresses forest
      (forest.map fun tree =>
        Frame.total { tree, parent := some "class_body", inClass := true }).sum
      (forest.map (tallyBelow outer)).sum := by
  induction forest with
  | nil => constructor <;> rfl
  | cons tree forest ih =>
    rw [List.forall_mem_cons] at h
    obtain ⟨htree, hforest⟩ := h
    rw [List.map_cons, List.map_cons, List.sum_cons, List.sum_cons]
    exact (suppresses_singleton htree outer).cons (ih hforest)

section Wrapper

variable {wrapper body : Tree} (hclass : wrapper.named = true ∧ isClassKind wrapper.kind = true)
  (hwrapper : wrapper.namedChildren = [body]) (hbody : body.kind = "class_body")
  (parent : Option String)

include hclass hwrapper hbody

theorem next_wrapper :
    Frame.next { tree := wrapper, parent, inClass := false } =
      [{ tree := body, parent := some wrapper.kind, inClass := true }] := by
  simp [Frame.next, hwrapper, Frame.childInClass, hclass, hbody, isDecoratorKind]

theorem tallyBelow_wrapper :
    wrapper.tallyBelow parent = { classes := 1 } + (body.namedChildren.map fun tree =>
      Frame.total { tree, parent := some "class_body", inClass := true }).sum := by
  have hplain : ¬ (body.named = true ∧ isClassKind body.kind = true) := by
    rw [hbody]
    simp [isClassKind]
  have hown : Frame.own { tree := wrapper, parent, inClass := false } = { classes := 1 } := by
    simp [Frame.own, hclass]
  have hnothing : Frame.own { tree := body, parent := some wrapper.kind, inClass := true } = 0 := by
    simp [Frame.own, hbody, isClassKind, isMethod, isMethodKind, isFunctionDeclarationKind]
    rfl
  rw [tallyBelow_eq_total]
  rw [Frame.total_eq]
  rw [hown]
  rw [next_wrapper hclass hwrapper hbody]
  rw [List.map_singleton]
  rw [List.sum_singleton]
  rw [Frame.total_eq { tree := body, parent := some wrapper.kind, inClass := true }]
  rw [hnothing]
  rw [zero_add]
  rw [next_of_not_class hplain]
  rw [List.map_map]
  rw [hbody]
  rfl

theorem inClass_below_wrapper {place : Place} {found : Frame}
    (h : (Frame.mk wrapper parent false).atPlace? (0 :: place) = some found) :
    found.inClass = true := by
  simp only [Frame.atPlace?, next_wrapper hclass hwrapper hbody, List.getElem?_cons_zero,
    Option.bind_some] at h
  exact Frame.inClass_of_atPlace? rfl h

end Wrapper

/--
Code that is wrapped in a class keeps its classes and its function declarations, and the class itself is one more.
Its function expressions and arrow functions are counted no longer, not even those in decorators of inner classes,
since everything below the class body is visited as part of a class. All its methods count, and so do all
signatures that stand directly in a class body.
-/
theorem tallyBelow_wrapping {wrapper body : Tree} {forest : List Tree}
    (hclass : wrapper.named = true ∧ isClassKind wrapper.kind = true)
    (hwrapper : wrapper.namedChildren = [body]) (hbody : body.kind = "class_body")
    (hforest : body.namedChildren = forest) (parent outer : Option String) :
    let wrapped := wrapper.tallyBelow parent
    let apart := Tally.sum (forest.map (tallyBelow outer))
    wrapped.classes = apart.classes + 1 ∧
    wrapped.arrows = 0 ∧
    wrapped.functions = nodeCount (some "class_body") forest Declares ∧
    wrapped.functions ≤ apart.functions ∧
    wrapped.methods = nodeCount (some "class_body") forest IsPlainMethod +
      nodeCount (some "class_body") forest IsMemberSignature ∧
    apart.methods ≤ wrapped.methods ∧
    ∀ place found, (Frame.mk wrapper parent false).atPlace? (0 :: place) = some found →
      found.inClass = true := by
  have hnamed : ∀ tree ∈ forest, tree.named = true := by
    intro tree htree
    rw [← hforest] at htree
    exact (List.mem_filter.mp htree).2
  have hsuppresses := suppresses_forest hnamed outer
  rw [← Tally.sum_eq (forest.map (tallyBelow outer))] at hsuppresses
  intro wrapped apart
  have hwrapped : wrapped = { classes := 1 } + (forest.map fun tree =>
      Frame.total { tree, parent := some "class_body", inClass := true }).sum := by
    rw [← hforest]
    exact tallyBelow_wrapper hclass hwrapper hbody parent
  rw [hwrapped]
  simp only [Tally.classes_add, Tally.arrows_add, Tally.functions_add, Tally.methods_add, zero_add]
  refine ⟨?_, hsuppresses.arrows_eq, hsuppresses.functions_eq, hsuppresses.functions_le,
    hsuppresses.methods_eq, hsuppresses.methods_ge, ?_⟩
  . rw [hsuppresses.classes_eq]
    exact Int.add_comm _ _
  . intro place found h
    exact inClass_below_wrapper hclass hwrapper hbody parent h

def crowdedBody : List Tree :=
  [leaf "function_declaration", leaf "function_expression", leaf "arrow_function",
    leaf "method_signature",
    mk "class" [mk "decorator" [leaf "arrow_function"], mk "class_body" [leaf "method_definition"]],
    mk "object_type" [leaf "method_signature"]]

def crowdedClass : Tree :=
  mk "class_declaration" [node "class" false [], mk "class_body" (crowdedBody ++ [node ";" false []])]

theorem tallyBelow_wrapping_crowdedClass :
    (crowdedClass.named = true ∧ isClassKind crowdedClass.kind = true) ∧
      Tally.sum (crowdedBody.map (tallyBelow none)) =
        { classes := 1, methods := 1, functions := 2, arrows := 2 } ∧
      (crowdedClass.tallyBelow none).classes = 1 + 1 ∧
      (crowdedClass.tallyBelow none).arrows = 0 ∧
      (crowdedClass.tallyBelow none).functions = 1 ∧
      nodeCount (some "class_body") crowdedBody Declares = 1 ∧
      (crowdedClass.tallyBelow none).methods = 2 ∧
      nodeCount (some "class_body") crowdedBody IsPlainMethod +
        nodeCount (some "class_body") crowdedBody IsMemberSignature = 2 := by
  have hclass : crowdedClass.named = true ∧ isClassKind crowdedClass.kind = true := by decide
  have hapart : Tally.sum (crowdedBody.map (tallyBelow none)) =
      { classes := 1, methods := 1, functions := 2, arrows := 2 } := by
    decide +kernel
  have hwrapped : crowdedClass.tallyBelow none =
      { classes := 2, methods := 2, functions := 1, arrows := 0 } := by
    decide +kernel
  obtain ⟨hclasses, harrows, hfunctions, -, hmethods, -, -⟩ :=
    @tallyBelow_wrapping crowdedClass _ crowdedBody hclass rfl rfl rfl none none
  rw [hapart] at hclasses
  rw [hwrapped] at hfunctions hmethods
  dsimp only at hfunctions hmethods
  refine ⟨hclass, hapart, hclasses, harrows, ?_, ?_, ?_, ?_⟩
  . rw [hwrapped]
  . omega
  . rw [hwrapped]
  . omega

end Tree

end ParadigmScan
