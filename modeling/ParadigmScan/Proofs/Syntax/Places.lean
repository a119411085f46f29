import Mathlib.Algebra.BigOperators.Group.List.Lemmas
import Mathlib.Algebra.BigOperators.Ring.Finset
import Mathlib.Data.Set.Card
import ParadigmScan.Proofs.Syntax.Frames

/-!
This module contains the tally of a syntax tree as a count of places. A place says which named child is
taken at every step of the way down from the start, so the nodes that a walk visits are exactly the nodes
at places, and whether a node lies inside a class can be read off the way that leads to it.
-/

namespace ParadigmScan

namespace Tree

abbrev Place := List Nat

def atPlace? (tree : Tree) : Place → Option Tree
  | [] => some tree
  | i :: place => tree.namedChildren[i]?.bind (·.atPlace? place)

/--
Whether the way to a place passes through a named class and goes on from there to something else than a
decorator.
-/
def InClass (start : Tree) (place : Place) : Prop :=
  ∃ above i below, place = above ++ i :: below ∧
    (∃ c, start.atPlace? above = some c ∧ c.named = true ∧ isClassKind c.kind = true) ∧
    ∃ d, start.atPlace? (above ++ [i]) = some d ∧ d.kind ≠ "decorator"

/--
The kind of the node above a place. The node above the start itself is not part of the tree and given.
-/
def parentKind? (parent : Option String) (start : Tree) (place : Place) : Option String :=
  if place = [] then parent else (start.atPlace? place.dropLast).map kind

def places (start : Tree) (p : Place → Tree → Prop) : Set Place :=
  {place | ∃ node, start.atPlace? place = some node ∧ p place node}

namespace Frame

def atPlace? (frame : Frame) : Place → Option Frame
  | [] => some frame
  | i :: place => frame.next[i]?.bind (·.atPlace? place)

theorem getElem?_next (frame : Frame) (i : Nat) :
    frame.next[i]? = frame.tree.namedChildren[i]?.map fun child =>
      { tree := child, parent := some frame.tree.kind, inClass := frame.childInClass child } := by
  unfold next
  rw [List.getElem?_map]

theorem map_tree_atPlace? (frame : Frame) (place : Place) :
    (frame.atPlace? place).map (·.tree) = frame.tree.atPlace? place := by
  induction place generalizing frame with
  | nil => rfl
  | cons i place ih =>
    simp only [atPlace?, Tree.atPlace?, getElem?_next]
    cases frame.tree.namedChildren[i]? with
    | none => rfl
    | some child =>
      simp only [Option.map_some, Option.bind_some]
      rw [ih]

theorem atPlace?_concat (frame : Frame) (place : Place) (i : Nat) :
    frame.atPlace? (place ++ [i]) = (frame.atPlace? place).bind (·.next[i]?) := by
  induction place generalizing frame with
  | nil => simp [atPlace?]
  | cons j place ih =>
    simp only [List.cons_append, atPlace?]
    cases frame.next[j]? with
    | none => rfl
    | some child =>
      simp only [Option.bind_some]
      rw [ih]

theorem childInClass_eq_true_iff (frame : Frame) (child : Tree) :
    frame.childInClass child = true ↔
      frame.inClass = true ∨
        (frame.tree.named = true ∧ isClassKind frame.tree.kind = true) ∧
          child.kind ≠ "decorator" := by
  unfold childInClass isDecoratorKind
  split
  . next h => simp_all
  . next h =>
    simp only [Bool.and_eq_true, Bool.not_eq_eq_eq_not, Bool.not_true, beq_eq_false_iff_ne, ne_eq,
      not_and] at h
    tauto

end Frame

theorem inClass_concat_iff {start : Tree} {place : Place} {i : Nat} :
    InClass start (place ++ [i]) ↔
      InClass start place ∨
        (∃ c, start.atPlace? place = some c ∧ c.named = true ∧ isClassKind c.kind = true) ∧
          ∃ d, start.atPlace? (place ++ [i]) = some d ∧ d.kind ≠ "decorator" := by
  constructor
  . rintro ⟨above, j, below, hplace, hclass, hnext⟩
    cases List.eq_nil_or_concat below with
    | inl hnil =>
      subst hnil
      obtain ⟨rfl, hij⟩ := List.append_inj' hplace rfl
      simp only [List.cons.injEq, and_true] at hij
      subst hij
      exact Or.inr ⟨hclass, hnext⟩
    | inr hconcat =>
      obtain ⟨below, k, rfl⟩ := hconcat
      left
      have : place ++ [i] = (above ++ j :: below) ++ [k] := by simpa using hplace
      obtain ⟨rfl, -⟩ := List.append_inj' this rfl
      exact ⟨above, j, below, rfl, hclass, hnext⟩
  . rintro (⟨above, j, below, rfl, hclass, hnext⟩ | ⟨hclass, hnext⟩)
    . exact ⟨above, j, below ++ [i], by simp, hclass, hnext⟩
    . exact ⟨place, i, [], rfl, hclass, hnext⟩

theorem not_inClass_nil (start : Tree) : ¬ InClass start [] := by
  rintro ⟨above, i, below, h, -, -⟩
  simp at h

namespace Frame

theorem inClass_atPlace?_iff {frame found : Frame} {place : Place}
    (h : frame.atPlace? place = some found) :
    found.inClass = true ↔ frame.inClass = true ∨ InClass frame.tree place := by
  induction place using List.reverseRecOn generalizing found with
  | nil =>
    simp only [atPlace?, Option.some.injEq] at h
    subst h
    simp [not_inClass_nil]
  | append_singleton place i ih =>
    rw [atPlace?_concat] at h
    obtain ⟨above, habove, hnext⟩ := Option.bind_eq_some_iff.mp h
    rw [getElem?_next] at hnext
    obtain ⟨child, hchild, rfl⟩ := Option.map_eq_some_iff.mp hnext
    have hat : frame.tree.atPlace? place = some above.tree := by
      rw [← map_tree_atPlace?]
      rw [habove]
      rfl
    have hat' : frame.tree.atPlace? (place ++ [i]) = some child := by
      rw [← map_tree_atPlace?]
      rw [atPlace?_concat]
      simp [habove, getElem?_next, hchild]
    rw [childInClass_eq_true_iff]
    rw [ih habove]
    rw [inClass_concat_iff]
    simp only [hat, hat', Option.some.injEq, exists_eq_left']
    tauto

theorem parent_atPlace? {frame found : Frame} {place : Place}
    (h : frame.atPlace? place = some found) :
    found.parent = parentKind? frame.parent frame.tree place := by
  unfold parentKind?
  cases List.eq_nil_or_concat place with
  | inl hnil =>
    subst hnil
    simp only [atPlace?, Option.some.injEq] at h
    subst h
    simp
  | inr hconcat =>
    obtain ⟨place, i, rfl⟩ := hconcat
    rw [List.concat_eq_append] at h ⊢
    rw [atPlace?_concat] at h
    obtain ⟨above, habove, hnext⟩ := Option.bind_eq_some_iff.mp h
    rw [getElem?_next] at hnext
    obtain ⟨child, hchild, rfl⟩ := Option.map_eq_some_iff.mp hnext
    rw [← map_tree_atPlace?]
    simp [habove]

theorem named_of_atPlace?_cons {frame found : Frame} {i : Nat} {place : Place}
    (h : frame.atPlace? (i :: place) = some found) : found.tree.named = true := by
  induction place generalizing frame i with
  | nil =>
    simp only [atPlace?, getElem?_next, Option.bind_fun_some] at h
    obtain ⟨child, hchild, rfl⟩ := Option.map_eq_some_iff.mp h
    have hmem := List.mem_of_getElem? hchild
    exact (List.mem_filter.mp hmem).2
  | cons j place ih =>
    obtain ⟨child, hchild, hfound⟩ := Option.bind_eq_some_iff.mp h
    exact ih hfound

def visited (frame : Frame) (p : Frame → Prop) : Set Place :=
  {place | ∃ found, frame.atPlace? place = some found ∧ p found}

def visitedList (frames : List Frame) (p : Frame → Prop) : Set Place :=
  {place | ∃ i rest frame, place = i :: rest ∧ frames[i]? = some frame ∧ rest ∈ frame.visited p}

theorem visited_eq (frame : Frame) (p : Frame → Prop) :
    frame.visited p = {place | place = [] ∧ p frame} ∪ visitedList frame.next p := by
  ext place
  cases place with
  | nil => simp [visited, visitedList, atPlace?]
  | cons i rest =>
    simp only [visited, visitedList, atPlace?, Option.bind_eq_some_iff, Set.mem_ofPred_eq,
      Set.mem_union, List.cons.injEq, reduceCtorEq, false_and, false_or]
    constructor
    . rintro ⟨found, ⟨child, hchild, hfound⟩, hp⟩
      exact ⟨i, rest, child, ⟨rfl, rfl⟩, hchild, found, hfound, hp⟩
    . rintro ⟨_, _, child, ⟨rfl, rfl⟩, hchild, found, hfound, hp⟩
      exact ⟨found, ⟨child, hchild, hfound⟩, hp⟩

theorem visitedList_nil (p : Frame → Prop) : visitedList [] p = ∅ := by
  ext place
  simp [visitedList]

theorem visitedList_cons (frame : Frame) (frames : List Frame) (p : Frame → Prop) :
    visitedList (frame :: frames) p =
      List.cons 0 '' frame.visited p ∪ List.modifyHead (· + 1) '' visitedList frames p := by
  ext place
  constructor
  . rintro ⟨i, rest, found, rfl, hfound, hrest⟩
    cases i with
    | zero =>
      left
      simp only [List.getElem?_cons_zero, Option.some.injEq] at hfound
      subst hfound
      exact ⟨rest, hrest, rfl⟩
    | succ i =>
      right
      simp only [List.getElem?_cons_succ] at hfound
      exact ⟨i :: rest, ⟨i, rest, found, rfl, hfound, hrest⟩, rfl⟩
  . rintro (⟨rest, hrest, rfl⟩ | ⟨_, ⟨i, rest, found, rfl, hfound, hrest⟩, rfl⟩)
    . exact ⟨0, rest, frame, rfl, by simp, hrest⟩
    . exact ⟨i + 1, rest, found, rfl, by simpa using hfound, hrest⟩

theorem finite_visitedList {frames : List Frame} {p : Frame → Prop}
    (h : ∀ frame ∈ frames, (frame.visited p).Finite) : (visitedList frames p).Finite := by
  induction frames with
  | nil =>
    rw [visitedList_nil]
    exact Set.finite_empty
  | cons frame frames ih =>
    rw [visitedList_cons]
    apply Set.Finite.union
    . apply Set.Finite.image
      apply h
      simp
    . apply Set.Finite.image
      apply ih
      intro frame hframe
      apply h
      simp [hframe]

theorem finite_visited (frame : Frame) (p : Frame → Prop) : (frame.visited p).Finite := by
  rw [visited_eq]
  apply Set.Finite.union
  . apply Set.Finite.subset (Set.finite_singleton [])
    rintro place ⟨rfl, -⟩
    rfl
  . apply finite_visitedList
    intro child hchild
    have := size_lt_of_mem_next hchild
    exact finite_visited child p
termination_by frame.tree.size

theorem ncard_visitedList (frames : List Frame) (p : Frame → Prop) :
    (visitedList frames p).ncard = (frames.map fun frame => (frame.visited p).ncard).sum := by
  induction frames with
  | nil => simp [visitedList_nil]
  | cons frame frames ih =>
    have hfinite : (visitedList frames p).Finite :=
      finite_visitedList fun frame _ => finite_visited frame p
    have hinj : Function.Injective (List.modifyHead (· + 1) : Place → Place) := by
      intro a b hab
      cases a <;> cases b <;> simp_all
    have hdisjoint : Disjoint (List.cons 0 '' frame.visited p)
        (List.modifyHead (· + 1) '' visitedList frames p) := by
      rw [Set.disjoint_left]
      rintro _ ⟨rest, -, rfl⟩ ⟨place, ⟨i, rest', found, rfl, -, -⟩, heq⟩
      simp at heq
    rw [visitedList_cons]
    rw [Set.ncard_union_eq hdisjoint ((finite_visited frame p).image _) (hfinite.image _)]
    rw [Set.ncard_image_of_injective _ List.cons_injective]
    rw [Set.ncard_image_of_injective _ hinj]
    rw [ih]
    simp

theorem ncard_visited (frame : Frame) (p : Frame → Prop) [Decidable (p frame)] :
    (frame.visited p).ncard =
      (if p frame then 1 else 0) + (frame.next.map fun child => (child.visited p).ncard).sum := by
  have hlist : (visitedList frame.next p).Finite :=
    finite_visitedList fun frame _ => finite_visited frame p
  have hnil : [] ∉ visitedList frame.next p := by
    rintro ⟨i, rest, child, h, -, -⟩
    simp at h
  rw [visited_eq]
  split
  . next hp =>
    have : {place : Place | place = [] ∧ p frame} ∪ visitedList frame.next p =
        insert [] (visitedList frame.next p) := by
      ext place
      simp [hp]
    rw [this]
    rw [Set.ncard_insert_of_notMem hnil hlist]
    rw [ncard_visitedList]
    omega
  . next hp =>
    have : {place : Place | place = [] ∧ p frame} ∪ visitedList frame.next p =
        visitedList frame.next p := by
      ext place
      simp [hp]
    rw [this]
    rw [ncard_visitedList]
    omega

theorem total_eq_ncard_visited (field : Tally →+ Int) (p : Frame → Prop) [DecidablePred p]
    (hown : ∀ frame, field frame.own = if p frame then 1 else 0) (frame : Frame) :
    field frame.total = (frame.visited p).ncard := by
  rw [total_eq]
  rw [map_add]
  rw [hown]
  rw [map_list_sum]
  rw [ncard_visited]
  have hchildren : (frame.next.map total).map field =
      frame.next.map fun child => ((child.visited p).ncard : Int) := by
    rw [List.map_map]
    apply List.map_congr_left
    intro child hchild
    have := size_lt_of_mem_next hchild
    exact total_eq_ncard_visited field p hown child
  rw [hchildren]
  push_cast
  rw [List.map_map]
  rfl
termination_by frame.tree.size

theorem visited_eq_places {frame : Frame} {p : Frame → Prop} {q : Place → Tree → Prop}
    (h : ∀ place found, frame.atPlace? place = some found → (p found ↔ q place found.tree)) :
    frame.visited p = frame.tree.places q := by
  ext place
  simp only [visited, places, Set.mem_ofPred_eq]
  rw [← map_tree_atPlace?]
  cases hfound : frame.atPlace? place with
  | none => simp
  | some found => simp [h place found hfound]

end Frame

theorem finite_places (start : Tree) (q : Place → Tree → Prop) : (start.places q).Finite := by
  let frame : Frame := { tree := start, parent := none, inClass := false }
  apply Set.Finite.subset (frame.finite_visited fun _ => True)
  rw [Frame.visited_eq_places (q := fun _ _ => True) (by simp)]
  rintro place ⟨node, hnode, -⟩
  exact ⟨node, hnode, trivial⟩

theorem ncard_places_or {start : Tree} {q r : Place → Tree → Prop}
    (h : ∀ place node, q place node → ¬ r place node) :
    (start.places fun place node => q place node ∨ r place node).ncard =
      (start.places q).ncard + (start.places r).ncard := by
  have hunion : (start.places fun place node => q place node ∨ r place node) =
      start.places q ∪ start.places r := by
    ext place
    simp only [places, Set.mem_ofPred_eq, Set.mem_union]
    grind
  have hdisjoint : Disjoint (start.places q) (start.places r) := by
    rw [Set.disjoint_left]
    rintro place ⟨node, hnode, hq⟩ ⟨node', hnode', hr⟩
    rw [hnode] at hnode'
    simp only [Option.some.injEq] at hnode'
    subst hnode'
    exact h place node hq hr
  rw [hunion]
  exact Set.ncard_union_eq hdisjoint (finite_places start _) (finite_places start _)

section

variable (parent : Option String) (start : Tree)

theorem total_eq_ncard_places (inClass : Bool) (field : Tally →+ Int) (p : Frame → Prop)
    [DecidablePred p] (q : Place → Tree → Prop)
    (hown : ∀ frame, field frame.own = if p frame then 1 else 0)
    (hiff : ∀ place found, (Frame.mk start parent inClass).atPlace? place = some found →
      (p found ↔ q place found.tree)) :
    field (Frame.total { tree := start, parent, inClass }) = (start.places q).ncard := by
  rw [Frame.total_eq_ncard_visited field p hown]
  rw [Frame.visited_eq_places hiff]

variable {parent start} in
theorem inClass_iff_of_atPlace? {place : Place} {found : Frame}
    (h : (Frame.mk start parent false).atPlace? place = some found) :
    found.inClass = true ↔ InClass start place := by
  rw [Frame.inClass_atPlace?_iff h]
  simp

theorem classes_total (inClass : Bool) :
    (Frame.total { tree := start, parent, inClass }).classes =
      (start.places fun _ node => node.named = true ∧ isClassKind node.kind = true).ncard := by
  let field : Tally →+ Int := ⟨⟨Tally.classes, rfl⟩, Tally.classes_add⟩
  apply total_eq_ncard_places parent start inClass field
    (fun frame => frame.tree.named = true ∧ isClassKind frame.tree.kind = true)
  . exact Frame.classes_own
  . simp

theorem classes_tallyBelow :
    (start.tallyBelow parent).classes =
      (start.places fun _ node => node.named = true ∧ isClassKind node.kind = true).ncard :=
  classes_total parent start false

theorem methods_tallyBelow :
    (start.tallyBelow parent).methods =
      (start.places fun place node => InClass start place ∧
        (isMethodKind node.kind = true ∨ node.kind = "method_signature" ∧
          parentKind? parent start place = some "class_body")).ncard := by
  let field : Tally →+ Int := ⟨⟨Tally.methods, rfl⟩, Tally.methods_add⟩
  apply total_eq_ncard_places parent start false field
    (fun frame => frame.tree.named = true ∧ frame.inClass = true ∧
      isMethod frame.parent frame.tree.kind = true)
  . exact Frame.methods_own
  . intro place found h
    have hnamed : InClass start place → found.tree.named = true := by
      intro hclass
      cases place with
      | nil => exact absurd hclass (not_inClass_nil start)
      | cons i place => exact Frame.named_of_atPlace?_cons h
    rw [inClass_iff_of_atPlace? h]
    rw [Frame.parent_atPlace? h]
    simp only [isMethod, Bool.or_eq_true, Bool.and_eq_true, beq_iff_eq]
    tauto

theorem functions_tallyBelow :
    (start.tallyBelow parent).functions =
      (start.places fun _ node =>
        node.named = true ∧ isFunctionDeclarationKind node.kind = true).ncard +
      (start.places fun place node =>
        node.named = true ∧ ¬ InClass start place ∧ isFunctionExpressionKind node.kind = true).ncard := by
  let field : Tally →+ Int := ⟨⟨Tally.functions, rfl⟩, Tally.functions_add⟩
  have hfield : field (start.tallyBelow parent) = (start.places fun place node =>
      node.named = true ∧ (isFunctionDeclarationKind node.kind = true ∨
        ¬ InClass start place ∧ isFunctionExpressionKind node.kind = true)).ncard := by
    apply total_eq_ncard_places parent start false field
      (fun frame => frame.tree.named = true ∧ (isFunctionDeclarationKind frame.tree.kind = true ∨
        frame.inClass = false ∧ isFunctionExpressionKind frame.tree.kind = true))
    . exact Frame.functions_own
    . intro place found h
      rw [← inClass_iff_of_atPlace? h]
      simp
  have hdistribute : (start.places fun place node =>
      node.named = true ∧ (isFunctionDeclarationKind node.kind = true ∨
        ¬ InClass start place ∧ isFunctionExpressionKind node.kind = true)) =
      start.places fun place node =>
        (node.named = true ∧ isFunctionDeclarationKind node.kind = true) ∨
        (node.named = true ∧ ¬ InClass start place ∧
          isFunctionExpressionKind node.kind = true) := by
    simp only [and_or_left]
  -- A node is never both a declaration and an expression, so the two counts can be taken apart.
  have hapart : ∀ (place : Place) (node : Tree),
      node.named = true ∧ isFunctionDeclarationKind node.kind = true →
      ¬ (node.named = true ∧ ¬ InClass start place ∧
        isFunctionExpressionKind node.kind = true) := by
    rintro place node ⟨-, hdeclaration⟩ ⟨-, -, hexpression⟩
    simp [others_of_isFunctionExpressionKind hexpression] at hdeclaration
  rw [hdistribute] at hfield
  rw [ncard_places_or hapart] at hfield
  rw [Nat.cast_add] at hfield
  exact hfield

theorem arrows_tallyBelow :
    (start.tallyBelow parent).arrows =
      (start.places fun place node =>
        node.named = true ∧ ¬ InClass start place ∧ node.kind = "arrow_function").ncard := by
  let field : Tally →+ Int := ⟨⟨Tally.arrows, rfl⟩, Tally.arrows_add⟩
  apply total_eq_ncard_places parent start false field
    (fun frame => frame.tree.named = true ∧ frame.inClass = false ∧
      isArrowKind frame.tree.kind = true)
  . exact Frame.arrows_own
  . intro place found h
    rw [← inClass_iff_of_atPlace? h]
    simp [isArrowKind]

theorem tallyBelow_anonymous (kind : String) (children : List Tree) :
    (node kind false children).tallyBelow parent =
      Tally.sum ((node kind false children).namedChildren.map (tallyBelow (some kind))) := by
  rw [tallyBelow_eq_total]
  rw [Frame.total_eq]
  rw [Tally.sum_eq]
  have hown : (Frame.mk (node kind false children) parent false).own = 0 := by
    simp [Frame.own, named]
    rfl
  rw [hown]
  rw [zero_add]
  rw [Frame.next]
  rw [List.map_map]
  rfl

/--
The tally of a node counts places: classes wherever they are, methods inside of classes, function
declarations wherever they are, function expressions and arrow functions outside of classes. An anonymous
node itself adds nothing to what its named children come to.
-/
theorem tallyBelow_counts_places :
    (start.places fun _ _ => True).Finite ∧
    (start.tallyBelow parent).classes =
      (start.places fun _ node => node.named = true ∧ isClassKind node.kind = true).ncard ∧
    (start.tallyBelow parent).methods =
      (start.places fun place node => InClass start place ∧
        (isMethodKind node.kind = true ∨ node.kind = "method_signature" ∧
          parentKind? parent start place = some "class_body")).ncard ∧
    (start.tallyBelow parent).functions =
      (start.places fun _ node =>
        node.named = true ∧ isFunctionDeclarationKind node.kind = true).ncard +
      (start.places fun place node =>
        node.named = true ∧ ¬ InClass start place ∧ isFunctionExpressionKind node.kind = true).ncard ∧
    (start.tallyBelow parent).arrows =
      (start.places fun place node =>
        node.named = true ∧ ¬ InClass start place ∧ node.kind = "arrow_function").ncard ∧
    ∀ kind children, (node kind false children).tallyBelow parent =
      Tally.sum ((node kind false children).namedChildren.map (tallyBelow (some kind))) := by
  refine ⟨finite_places start _, ?_, ?_, ?_, ?_, ?_⟩
  . exact classes_tallyBelow parent start
  . exact methods_tallyBelow parent start
  . exact functions_tallyBelow parent start
  . exact arrows_tallyBelow parent start
  . exact tallyBelow_anonymous parent

end

end Tree

end ParadigmScan
