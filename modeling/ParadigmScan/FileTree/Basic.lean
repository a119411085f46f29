/-!
This module contains trees of files: regular files with their bytes, directories with named entries,
symbolic links, and nodes that are none of these.
-/

namespace ParadigmScan

inductive Node where
  | file (bytes : List UInt8)
  | directory (entries : List (String × Node))
  | link (target : String)
  | special
  deriving Inhabited

namespace Node

def entries : Node → List (String × Node)
  | directory entries => entries
  | _ => []

/--
Whether a node is a directory itself. A link to one is not.
-/
def isDirectory : Node → Bool
  | directory _ => true
  | _ => false

def isFile : Node → Bool
  | file _ => true
  | _ => false

def child? (node : Node) (name : String) : Option Node :=
  node.entries.lookup name

mutual

def size : Node → Nat
  | directory entries => 1 + sizeEntries entries
  | _ => 1

def sizeEntries : List (String × Node) → Nat
  | [] => 0
  | (_, node) :: rest => node.size + sizeEntries rest

end

def alterEntry (name : String) (change : Option Node → Node) :
    List (String × Node) → List (String × Node)
  | [] => [(name, change none)]
  | (other, node) :: rest =>
    if other == name then (other, change (some node)) :: rest
    else (other, node) :: alterEntry name change rest

/--
Puts a node at the end of a list of names. Directories that are missing on the way are made.
-/
def insert : List String → Node → Option Node → Node
  | [], node, _ => node
  | name :: rest, node, there =>
    .directory (alterEntry name (insert rest node) ((there.map entries).getD []))

end Node

end ParadigmScan
