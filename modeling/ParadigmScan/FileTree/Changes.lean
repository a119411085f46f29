import ParadigmScan.FileTree.Basic

/-!
This module contains the difference between two trees of files: the files of the second one that the first
one has not, or has with other bytes.
-/

namespace ParadigmScan

namespace Node

mutual

def changes (old : Option Node) : Node → List (List String × List UInt8)
  | file bytes =>
    match old with
    | some (file before) => if before == bytes then [] else [([], bytes)]
    | _ => [([], bytes)]
  | directory entries => changesBelow ((old.map Node.entries).getD []) entries
  | _ => []

def changesBelow (old : List (String × Node)) :
    List (String × Node) → List (List String × List UInt8)
  | [] => []
  | (name, node) :: rest =>
    (node.changes (old.lookup name)).map (fun (names, bytes) => (name :: names, bytes)) ++
      changesBelow old rest

end

end Node

end ParadigmScan
