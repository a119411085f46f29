import ParadigmScan.Syntax.Tree
import ParadigmScan.Tally

/-!
This module contains the rules that say which nodes of a syntax tree count as a class, a method, a
function or an arrow function, and the walk that adds them up. The walk keeps a list of the subtrees
that are still to be visited, each with what its surroundings say about it.
-/

namespace ParadigmScan

namespace Tree

def isClassKind (kind : String) : Bool :=
  kind == "class_declaration" || kind == "abstract_class_declaration" || kind == "class"

def isMethodKind (kind : String) : Bool :=
  kind == "method_definition" || kind == "abstract_method_signature"

def isFunctionDeclarationKind (kind : String) : Bool :=
  kind == "function_declaration" || kind == "generator_function_declaration" ||
    kind == "function_signature"

def isFunctionExpressionKind (kind : String) : Bool :=
  kind == "function_expression" || kind == "function" || kind == "generator_function"

def isArrowKind (kind : String) : Bool :=
  kind == "arrow_function"

def isDecoratorKind (kind : String) : Bool :=
  kind == "decorator"

/--
Whether a node inside a class is a method: a signature without a body is one only if it stands
directly in a class body.
-/
def isMethod (parent : Option String) (kind : String) : Bool :=
  isMethodKind kind || (kind == "method_signature" && parent == some "class_body")

/--
A subtree still to be visited: the kind of the node above it, and whether it lies inside a class.
-/
structure Frame where
  tree : Tree
  parent : Option String
  inClass : Bool
  deriving Inhabited

namespace Frame

/--
What the node itself adds. An anonymous node adds nothing; expressions count only outside of
classes, methods only inside.
-/
def own (frame : Frame) : Tally :=
  let kind := frame.tree.kind
  if !frame.tree.named then
    {}
  else if isClassKind kind then
    { classes := 1 }
  else if frame.inClass && isMethod frame.parent kind then
    { methods := 1 }
  else if isFunctionDeclarationKind kind then
    { functions := 1 }
  else if !frame.inClass && isFunctionExpressionKind kind then
    { functions := 1 }
  else if !frame.inClass && isArrowKind kind then
    { arrows := 1 }
  else
    {}

/--
Whether a child of the node lies inside a class: below a class everything does, except that the
decorators of the class belong to its surroundings.
-/
def childInClass (frame : Frame) (child : Tree) : Bool :=
  if frame.tree.named && isClassKind frame.tree.kind && !isDecoratorKind child.kind then
    true
  else
    frame.inClass

def next (frame : Frame) : List Frame :=
  frame.tree.namedChildren.map fun child =>
    { tree := child, parent := some frame.tree.kind, inClass := frame.childInClass child }

def weight (frames : List Frame) : Nat :=
  sizeList (frames.map (·.tree))

theorem map_tree_next (frame : Frame) : frame.next.map (·.tree) = frame.tree.namedChildren := by
  simp [next, Function.comp_def]

theorem weight_next_append_lt (frame : Frame) (rest : List Frame) :
    weight (frame.next.reverse ++ rest) < weight (frame :: rest) := by
  have := sizeList_namedChildren_lt frame.tree
  simp only [weight, List.map_append, List.map_reverse, map_tree_next, sizeList_append, sizeList_reverse,
    List.map_cons, sizeList]
  omega

end Frame

/--
Visits every frame and adds up what the nodes contribute. The frame that came last is visited first, so the children of
a node are visited from the last to the first.
-/
def tallyFrames (frames : List Frame) (total : Tally) : Tally :=
  match frames with
  | [] => total
  | frame :: rest => tallyFrames (frame.next.reverse ++ rest) (total + frame.own)
termination_by Frame.weight frames
decreasing_by exact Frame.weight_next_append_lt frame rest

/--
The constructs at and below a node that stands below a node of kind `parent`. The surroundings of the
node do not put it inside a class.
-/
def tallyBelow (parent : Option String) (tree : Tree) : Tally :=
  tallyFrames [{ tree, parent, inClass := false }] {}

def tally (tree : Tree) : Tally := tallyBelow none tree

end Tree

end ParadigmScan
