import ParadigmScan.FileTree.Basic
import ParadigmScan.Path
import ParadigmScan.Platform
import ParadigmScan.Text.Quoted

/-!
This module contains what a path leads to in a tree of files, and why it may lead nowhere. Symbolic
links are followed, but only so many of them on one way.
-/

namespace ParadigmScan

inductive FileError where
  | notFound
  | denied
  | notDirectory
  | isDirectory
  | nameTooLong
  | tooManyLinks
  deriving DecidableEq, Repr, Inhabited

namespace FileError

def code : FileError → Nat
  | notFound => 2
  | denied => 13
  | notDirectory => 20
  | isDirectory => 21
  | nameTooLong => 36
  | tooManyLinks => 40

def description : FileError → String
  | notFound => "No such file or directory"
  | denied => "Permission denied"
  | notDirectory => "Not a directory"
  | isDirectory => "Is a directory"
  | nameTooLong => "File name too long"
  | tooManyLinks => "Too many levels of symbolic links"

def message (error : FileError) (path : String) : String :=
  s!"[Errno {error.code}] {error.description}: {Text.quoted path}"

/--
Whether the error says that there is nothing to be found, and not that it could not be looked up.
-/
def meansAbsent : FileError → Bool
  | notFound | notDirectory | tooManyLinks => true
  | _ => false

end FileError

/--
What a program sees of the system: the tree of files from the root on, the names that lead to the directory it works
in, and what it is not allowed to do.
-/
structure Host where
  tree : Node
  cwd : List String
  /-- The paths that may not be opened for reading. -/
  denied : List Path
  /-- Whether the text of a path leads through a directory that may not be searched. -/
  bars : String → Bool := fun _ => false
  /-- Why what the text of a path leads to may not be written. -/
  writeError? : String → Option FileError := fun _ => none
  platform : Platform := {}
  deriving Inhabited

/--
The place of a node: the names that lead to it from the root, innermost first, each with its node.
-/
abbrev Location := List (String × Node)

/--
Where a way ends: at a node, or in a directory that has no entry of the last name.
-/
inductive Destination where
  | node (location : Location)
  | missing (location : Location) (name : String)
  deriving Inhabited

namespace Host

def maxLinks : Nat := 40

def maxNameBytes : Nat := 255

def maxPathBytes : Nat := 4096

/--
The names that a text leads along. A slash at the end asks for a directory, as a dot behind it would.
-/
def stepsOf (text : String) : List String :=
  let names := (Path.parts text).filter (· != "")
  if text.endsWith "/" && !names.isEmpty then names ++ ["."] else names

def nodeAt (host : Host) : Location → Node
  | [] => host.tree
  | (_, node) :: _ => node

/--
Follows names from a location. Each link takes one from the number of links that are left.
-/
def walk (host : Host) (links : Nat) (here : Location) (steps : List String) :
    Except FileError Destination :=
  match steps with
  | [] => .ok (.node here)
  | step :: rest =>
    if !(host.nodeAt here).isDirectory then .error .notDirectory
    else if step == "." then host.walk links here rest
    else if step == ".." then host.walk links here.tail rest
    else if maxNameBytes < step.utf8ByteSize then .error .nameTooLong
    else
      match (host.nodeAt here).child? step with
      | none => if rest.isEmpty then .ok (.missing here step) else .error .notFound
      | some (.link target) =>
        match links with
        | 0 => .error .tooManyLinks
        | links + 1 =>
          host.walk links (if target.startsWith "/" then [] else here) (stepsOf target ++ rest)
      | some node => host.walk links ((step, node) :: here) rest
termination_by (links, steps.length)

def workingLocation (host : Host) : Location :=
  (host.cwd.foldl step ([], host.tree)).1
where
  step : Location × Node → String → Location × Node
    | (location, node), name =>
      let next := (node.child? name).getD (.directory [])
      ((name, next) :: location, next)

/--
Where the text of a path leads to, however long it is and whatever directories it leads through.
-/
def follow (host : Host) (text : String) : Except FileError Destination :=
  host.walk maxLinks (if text.startsWith "/" then [] else host.workingLocation) (stepsOf text)

def find (host : Host) (text : String) : Except FileError Destination :=
  if maxPathBytes ≤ text.utf8ByteSize then .error .nameTooLong
  else if host.bars text then .error .denied
  else host.follow text

def locate (host : Host) (text : String) : Except FileError Location := do
  match ← host.find text with
  | .node location => return location
  | .missing _ _ => throw .notFound

def resolve (host : Host) (text : String) : Except FileError Node :=
  host.nodeAt <$> host.locate text

/--
Whether what a path leads to satisfies `p`. It does not if nothing is there.
-/
def check (host : Host) (p : Node → Bool) (path : Path) : Except FileError Bool :=
  if Path.hasNul path.text then .ok false
  else
    match host.resolve path.text with
    | .ok node => .ok (p node)
    | .error error => if error.meansAbsent then .ok false else .error error

def isFile (host : Host) (path : Path) : Except FileError Bool := host.check Node.isFile path

def isDirectory (host : Host) (path : Path) : Except FileError Bool :=
  host.check Node.isDirectory path

def isDenied (host : Host) (path : Path) : Bool :=
  host.denied.contains (Path.absolute host.cwd path.text)

def readBytes (host : Host) (path : Path) : Except FileError (List UInt8) := do
  if host.isDenied path then throw .denied
  match ← host.resolve path.text with
  | .file bytes => return bytes
  | .directory _ => throw .isDirectory
  | _ => return []

def listEntries (host : Host) (path : Path) : Except FileError (List (String × Node)) := do
  if host.isDenied path then throw .denied
  match ← host.resolve path.text with
  | .directory entries => return entries.mergeSort fun a b => a.1 ≤ b.1
  | _ => throw .notDirectory

def putFile (host : Host) (names : List String) (bytes : List UInt8) : Host :=
  { host with tree := Node.insert names (.file bytes) (some host.tree) }

/--
The host after the bytes of a file were changed; a file that is missing is made, but no directory. A special node takes
everything and keeps nothing.
-/
def writeBytes (host : Host) (text : String) (change : List UInt8 → List UInt8) :
    Except FileError Host := do
  let destination ← host.find text
  match host.writeError? text with
  | some error => throw error
  | none =>
    match destination with
    | .missing location name =>
      return host.putFile (location.reverse.map (·.1) ++ [name]) (change [])
    | .node location =>
      match host.nodeAt location with
      | .directory _ => throw .isDirectory
      | .file bytes => return host.putFile (location.reverse.map (·.1)) (change bytes)
      | _ => return host

end Host

end ParadigmScan
