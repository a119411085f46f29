/-!
This module contains paths: where they start and the names on the way. Two spellings of a path that differ
only in repeated slashes, single dots or a slash at the end are the same path; two dots are kept, since
what they lead to depends on the links on the way.
-/

namespace ParadigmScan

/--
Where a path starts. Two leading slashes are kept apart from one.
-/
inductive Anchor where
  | here
  | root
  | doubleRoot
  deriving DecidableEq, Repr, Inhabited

namespace Anchor

def ofText (text : String) : Anchor :=
  match text.toList with
  | '/' :: '/' :: '/' :: _ => root
  | '/' :: '/' :: _ => doubleRoot
  | '/' :: _ => root
  | _ => here

def text : Anchor → String
  | here => ""
  | root => "/"
  | doubleRoot => "//"

end Anchor

structure Path where
  anchor : Anchor
  names : List String
  deriving DecidableEq, Repr, Inhabited

namespace Path

def parts (text : String) : List String :=
  (text.toList.splitOn '/').map String.ofList

def namesOf (text : String) : List String :=
  (parts text).filter fun name => name != "" && name != "."

def ofText (text : String) : Path :=
  { anchor := .ofText text, names := namesOf text }

def text (path : Path) : String :=
  match path.anchor, path.names with
  | .here, [] => "."
  | anchor, names => anchor.text ++ "/".intercalate names

def child (path : Path) (name : String) : Path :=
  { path with names := path.names ++ [name] }

def descend (path : Path) (names : List String) : Path :=
  { path with names := path.names ++ names }

def isAbsolute (path : Path) : Bool := path.anchor != .here

def collapse (names : List String) : List String :=
  (names.foldl step []).reverse
where
  step (done : List String) (name : String) : List String :=
    if name == ".." then done.tail else name :: done

/--
The path from the root on, for a program that works in the directory `cwd`. Two dots are removed
without regard to links.
-/
def absolute (cwd : List String) (text : String) : Path :=
  let path := ofText text
  if path.isAbsolute then { path with names := collapse path.names }
  else { anchor := .root, names := collapse (cwd ++ path.names) }

def hasNul (text : String) : Bool := text.contains (Char.ofNat 0)

end Path

end ParadigmScan
