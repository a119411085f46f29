import ParadigmScan.Syntax.Tree

/-!
This module contains the flat form of syntax trees: one row per node in preorder, with the depth of
the node, and the list of all nodes of a tree in that order.
-/

namespace ParadigmScan

namespace Tree

structure Row where
  depth : Nat
  kind : String
  named : Bool
  deriving DecidableEq, Repr, Inhabited

/--
Builds the trees whose roots have at least the given depth from the front of the rows, and returns
the rows that are left. The fuel bounds the number of rows taken.
-/
def ofRows (depth : Nat) : Nat → List Row → List Tree × List Row
  | 0, rows => ([], rows)
  | _, [] => ([], [])
  | fuel + 1, row :: rows =>
    if depth ≤ row.depth then
      let (children, rows) := ofRows (row.depth + 1) fuel rows
      let (siblings, rows) := ofRows depth fuel rows
      (node row.kind row.named children :: siblings, rows)
    else
      ([], row :: rows)

/--
The tree that a list of rows describes: a row belongs to the nearest earlier row of smaller depth.
-/
def ofPreorder? (rows : List Row) : Option Tree :=
  (ofRows 0 rows.length rows).1.head?

mutual

def nodes (parent : Option String) : Tree → List (Option String × Tree)
  | node kind named children =>
    (parent, node kind named children) :: nodesList (some kind) children

def nodesList (parent : Option String) : List Tree → List (Option String × Tree)
  | [] => []
  | t :: ts => t.nodes parent ++ nodesList parent ts

end

end Tree

end ParadigmScan
