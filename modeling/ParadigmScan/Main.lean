import ParadigmScan.CommandLine.Run
import ParadigmScan.FileTree.Changes
import ParadigmScan.Log.Stamp

/-!
This module contains the program itself: it takes a picture of the files that the command line leads to,
runs the command on it, prints what is to be printed and writes the files that have changed.
-/

namespace ParadigmScan

/--
How much of a file or directory is put into a picture.
-/
inductive Detail where
  /-- That it is there. -/
  | presence
  /-- The bytes of a file as well. -/
  | contents
  /-- Everything below a directory as well; links are followed if asked for. -/
  | everything (followLinks : Bool)

/--
A picture of files under way: the files so far, and the directories that were entered.
-/
structure Picture where
  host : Host
  entered : List String := []

namespace Picture

def put (picture : Picture) (names : List String) (node : Node) : Picture :=
  { picture with host.tree := Node.insert names node (some picture.host.tree) }

def putNew (picture : Picture) (names : List String) (node : Node) : Picture :=
  if (names.foldl (fun here name => here.bind (·.child? name)) (some picture.host.tree)).isSome then
    picture
  else
    picture.put names node

def deny (picture : Picture) (path : String) : Picture :=
  { picture with host.denied := Path.ofText path :: picture.host.denied }

def isRead (detail : Detail) (name : String) : Bool :=
  match detail with
  | .presence => false
  | .contents => true
  | .everything _ => isSourceFile name

partial def add (detail : Detail) (picture : Picture) (entry : IO.FS.DirEntry) : IO Picture := do
  let path := entry.path.toString
  let names := Path.namesOf path
  match (← entry.path.symlinkMetadata).type with
  | .symlink =>
    match ← (IO.FS.realPath path).toBaseIO with
    | .error _ => return picture.put names (.link path)
    | .ok target =>
      let picture := picture.put names (.link target.toString)
      let isDirectory ← target.isDir
      let detail := match detail with
        | .everything followLinks =>
          if isDirectory && followLinks then detail
          else if !isDirectory && isSourceFile entry.fileName then .contents
          else .presence
        | detail => detail
      let known := picture.host.denied.length
      let picture ← add detail picture
        { root := target.parent.getD "/", fileName := target.fileName.getD "" }
      return if known < picture.host.denied.length then picture.deny path else picture
  | .dir =>
    let picture := picture.putNew names (.directory [])
    match detail with
    | .everything _ =>
      if picture.entered.contains path then return picture
      let mut picture := { picture with entered := path :: picture.entered }
      match ← entry.path.readDir.toBaseIO with
      | .error _ => return picture.deny path
      | .ok entries =>
        for entry in entries do
          let detail := if skippedDirectories.contains entry.fileName then .presence else detail
          picture ← add detail picture entry
        return picture
    | _ => return picture
  | .file =>
    if isRead detail entry.fileName then
      match ← (IO.FS.readBinFile path).toBaseIO with
      | .ok bytes => return picture.put names (.file bytes.toList)
      | .error _ => return (picture.putNew names (.file [])).deny path
    else
      return picture.putNew names (.file [])
  | .other => return picture.putNew names .special

def entryOf (names : List String) : IO.FS.DirEntry :=
  { root := "/" ++ "/".intercalate names.dropLast, fileName := names.getLast?.getD "" }

/--
Adds what a path leads to, and the links on the way. Where the way ends early, nothing else is added.
-/
def follow (detail : Detail) (picture : Picture) (text : String) : IO Picture := do
  let mut picture := picture
  let mut here := if text.startsWith "/" then [] else picture.host.cwd
  for step in Host.stepsOf text do
    if step == ".." then
      here := here.dropLast
    else if step != "." then
      let entry := entryOf (here ++ [step])
      match ← (add .presence picture entry).toBaseIO, ← (IO.FS.realPath entry.path).toBaseIO with
      | .ok next, .ok target =>
        picture := next
        here := Path.namesOf target.toString
      | .ok next, .error _ => return next
      | .error _, _ => return picture
  let next ← add detail picture (entryOf here)
  return if picture.host.denied.length < next.host.denied.length then next.deny text else next

/--
The picture that a command line asks for. The settings say what else is used besides the paths in it.
-/
def ofArguments (cwd : List String) (argv : List String) : IO Picture := do
  let empty : Host := { tree := Node.insert cwd (.directory []) none, cwd, denied := [] }
  match CommandLine.readArguments argv {} with
  | .error _ => return { host := empty }
  | .ok arguments =>
    let config := arguments.value? .config
    let directory := arguments.others.head?.getD "."
    let mut picture : Picture := { host := empty }
    picture ← follow .contents picture Settings.projectFileName
    for text in config.toList do
      picture ← follow .contents picture text
    for text in (arguments.value? .output).toList do
      picture ← follow .presence picture text
    picture ← follow .presence picture directory
    match Settings.load picture.host (config.map Path.ofText) [] with
    | .error _ => return picture
    | .ok settings =>
      for text in settings.logFile.toList do
        picture ← follow .contents picture (Path.absolute cwd text).text
      follow (.everything settings.followLinks) picture (Path.absolute cwd directory).text

end Picture

def startTime : IO Nat := do
  let program : IO.FS.DirEntry := { root := "/proc", fileName := "self" }
  match ← program.path.metadata.toBaseIO with
  | .ok data => return data.modified.sec.toNat
  | .error _ => return 0

end ParadigmScan

open ParadigmScan in
def main (argv : List String) : IO UInt32 := do
  let cwd := Path.namesOf (← IO.FS.realPath (← IO.currentDir)).toString
  let host := (← Picture.ofArguments cwd argv).host
  match CommandLine.runCommand (CommandLine.readRequest host) .plain .grammar host
      (Log.stamp (← startTime)) argv with
  | .error error =>
    IO.eprintln s!"Error: {error.message}"
    return 2
  | .ok (run, code) =>
    for record in run.shown do
      IO.eprintln s!"{record.level.name} {record.message}"
    IO.eprint run.stderr
    IO.print run.stdout
    for (names, bytes) in run.host.tree.changes (some host.tree) do
      -- The bytes of a file that could not be read are not known, so it is left as it is.
      let path : Path := { anchor := .root, names }
      if !host.isDenied path then
        IO.FS.writeBinFile path.text ⟨bytes.toArray⟩
    return (code % 256).toNat.toUInt32
