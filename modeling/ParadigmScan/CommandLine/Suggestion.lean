/-!
This module contains how alike two texts are, and which of several texts are close to one. The likeness is
the share of the characters that lie in common blocks: the longest common block, and again the longest ones
to its left and to its right.
-/

namespace ParadigmScan

namespace CommandLine

def commonPrefix : List Char → List Char → Nat
  | a :: as, b :: bs => if a == b then commonPrefix as bs + 1 else 0
  | _, _ => 0

/--
A block that two texts have in common: where it starts in each of them, and its size.
-/
structure Block where
  left : Nat
  right : Nat
  size : Nat
  deriving DecidableEq, Repr, Inhabited

/--
The longest common block; of several the first one in the first text, and then in the second.
-/
def longestBlock (as bs : List Char) : Block :=
  let starts := (List.range as.length).flatMap fun i =>
    (List.range bs.length).map fun j => (i, j)
  starts.foldl (fun best (i, j) =>
    let size := commonPrefix (as.drop i) (bs.drop j)
    if best.size < size then { left := i, right := j, size } else best)
    { left := 0, right := 0, size := 0 }

/--
The number of characters in common blocks. The fuel bounds the number of blocks.
-/
def commonCount : Nat → List Char → List Char → Nat
  | 0, _, _ => 0
  | fuel + 1, as, bs =>
    let block := longestBlock as bs
    if block.size == 0 then 0
    else
      commonCount fuel (as.take block.left) (bs.take block.right) + block.size +
        commonCount fuel (as.drop (block.left + block.size)) (bs.drop (block.right + block.size))

def likeness (a b : String) : Nat × Nat :=
  (2 * commonCount a.length a.toList b.toList, a.length + b.length)

/--
The texts that are close to a given one, at most three of them and the closest first. Texts are close if
three fifths of their characters agree.
-/
def closeTo (given : String) (texts : List String) : List String :=
  let scored := texts.map fun text => (likeness text given, text)
  let close := scored.filter fun ((common, total), _) => 3 * total ≤ 5 * common
  let before : ((Nat × Nat) × String) → ((Nat × Nat) × String) → Bool :=
    fun ((c₁, t₁), a) ((c₂, t₂), b) =>
      c₂ * t₁ < c₁ * t₂ || (c₁ * t₂ == c₂ * t₁ && b ≤ a)
  ((close.mergeSort before).take 3).map (·.2)

end CommandLine

end ParadigmScan
