/-!
This module contains the syntax trees that a tally is taken of: ordered trees whose nodes carry the
name of a grammar rule. A node is either named (it stands for a construct of the language) or anonymous
(a keyword or a punctuation mark).
-/

namespace ParadigmScan

inductive Tree where
  | node (kind : String) (named : Bool) (children : List Tree)
  deriving Inhabited

namespace Tree

def kind : Tree → String
  | node kind _ _ => kind

def named : Tree → Bool
  | node _ named _ => named

def children : Tree → List Tree
  | node _ _ children => children

def namedChildren (t : Tree) : List Tree :=
  t.children.filter (·.named)

def mk (kind : String) (children : List Tree) : Tree := node kind true children

def leaf (kind : String) : Tree := node kind true []

mutual

def size : Tree → Nat
  | node _ _ children => 1 + sizeList children

def sizeList : List Tree → Nat
  | [] => 0
  | t :: ts => t.size + sizeList ts

end

theorem sizeList_append (ts us : List Tree) : sizeList (ts ++ us) = sizeList ts + sizeList us := by
  induction ts with
  | nil => simp [sizeList]
  | cons t ts ih => simp [sizeList, ih]; omega

theorem sizeList_reverse (ts : List Tree) : sizeList ts.reverse = sizeList ts := by
  induction ts with
  | nil => rfl
  | cons t ts ih => simp [sizeList, sizeList_append, ih]; omega

theorem sizeList_filter_le (p : Tree → Bool) (ts : List Tree) :
    sizeList (ts.filter p) ≤ sizeList ts := by
  induction ts with
  | nil => simp
  | cons t ts ih =>
    rw [List.filter_cons]
    split <;> simp only [sizeList] <;> omega

theorem sizeList_namedChildren_lt (t : Tree) : sizeList t.namedChildren < t.size := by
  cases t with
  | node kind named children =>
    have := sizeList_filter_le (·.named) children
    simp only [namedChildren, Tree.children, size]
    omega

end Tree

end ParadigmScan
