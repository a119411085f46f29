import ParadigmScan.Dialect
import ParadigmScan.Failure
import ParadigmScan.Log.Record

/-!
This module contains the list of the source files below a directory. Directories with certain names are
never entered, and neither directories nor files are taken whose path from the top contains an
exclusion pattern. The files of a directory come before those of its subdirectories, and entries come in
the order of their names.
-/

namespace ParadigmScan

def skippedDirectories : List String :=
  ["node_modules", ".next", ".git", "dist", "build", "out", ".turbo", ".cache", "coverage",
    "__pycache__", ".bazel-cache", "bazel-out", ".output", ".nuxt", ".svelte-kit"]

def containsText (part : List Char) : List Char → Bool
  | [] => part.isEmpty
  | c :: rest => part.isPrefixOf (c :: rest) || containsText part rest

/--
Whether a path contains one of the patterns. Empty patterns do not count.
-/
def isExcluded (patterns : List String) (path : String) : Bool :=
  patterns.any fun pattern => !pattern.isEmpty && containsText pattern.toList path.toList

namespace Listing

structure Options where
  patterns : List String := []
  skipped : List String := skippedDirectories
  followLinks : Bool := false
  deriving DecidableEq, Repr, Inhabited

inductive EntryKind where
  | file
  | directory
  | other
  deriving DecidableEq, Repr, Inhabited

namespace EntryKind

def ofNode : Node → EntryKind
  | .file _ => file
  | .directory _ => directory
  | _ => other

end EntryKind

/--
The kind of an entry. If links are followed, a link is taken for what it leads to.
-/
def entryKind (host : Host) (options : Options) (path : Path) (node : Node) : EntryKind :=
  match node with
  | .link _ =>
    if options.followLinks then
      match host.resolve path.text with
      | .ok node => .ofNode node
      | .error _ => .other
    else
      .other
  | node => .ofNode node

def relativeText (names : List String) : String := "/".intercalate names

def admitted (host : Host) (options : Options) (top : Path) (names : List String)
    (kind : EntryKind) (accepts : String → Bool) (entries : List (String × Node)) :
    List (List String) :=
  (entries.filter fun (name, node) =>
    let path := names ++ [name]
    entryKind host options (top.descend path) node == kind && accepts name &&
      !isExcluded options.patterns (relativeText path)).map fun (name, _) => names ++ [name]

/--
A listing under way: the directories still to be entered, those entered so far by their real place, the
files found and the records written.
-/
structure State where
  pending : List (List String)
  entered : List (List String) := []
  files : List (List String) := []
  records : List Log.Record := []
  deriving Inhabited

/--
The real place of a file or directory. A path that is too long to be opened has one as well.
-/
def realPlace (host : Host) (path : Path) : List String :=
  match host.follow path.text with
  | .ok (.node location) => location.map (·.1)
  | _ => []

def enter (host : Host) (options : Options) (top : Path) (names : List String) (state : State) :
    State :=
  let path := top.descend names
  match host.listEntries path with
  | .error error =>
    let message := s!"Skipping unreadable directory {path.text}: {error.message path.text}"
    { state with records := state.records ++ [Log.debug "scanning.walker" message] }
  | .ok entries =>
    let files := admitted host options top names .file isSourceFile entries
    let directories := admitted host options top names .directory
      (!options.skipped.contains ·) entries
    { state with
      pending := directories ++ state.pending
      files := state.files ++ files }

/--
Enters the pending directories one after the other. If links are followed, a directory is entered only
once, whatever way leads to it.
-/
def run (host : Host) (options : Options) (top : Path) : Nat → State → State
  | 0, state => state
  | fuel + 1, state =>
    match state.pending with
    | [] => state
    | names :: pending =>
      let state := { state with pending }
      if options.followLinks then
        let place := realPlace host (top.descend names)
        if state.entered.contains place then
          run host options top fuel state
        else
          run host options top fuel
            (enter host options top names { state with entered := place :: state.entered })
      else
        run host options top fuel (enter host options top names state)

/--
The source files below a directory, and the records about directories that could not be read. Every
directory is entered at most once, so there are fewer steps than nodes.
-/
def list (host : Host) (options : Options) (top : Path) : List Path × List Log.Record :=
  let state := run host options top (host.tree.size + 1) { pending := [[]] }
  (state.files.map top.descend, state.records)

def list? (host : Host) (options : Options) (top : Path) :
    Except Fault (List Path × List Log.Record) :=
  if Path.hasNul top.text then .error .nulInPath else .ok (list host options top)

end Listing

end ParadigmScan
