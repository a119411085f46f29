import ParadigmScan.FileTree.Resolve
import ParadigmScan.Log.Record
import ParadigmScan.Settings.Basic

/-!
This module contains where log records go: to the console and to a file. Sinks are set up once; setting
them up again only changes how much is logged, but a log file is made in any case.
-/

namespace ParadigmScan

namespace Log

inductive Sink where
  /-- The console; the time, the place in the program and the values of variables may be shown. -/
  | console (showTime showPath showLocals : Bool)
  /-- A file that records are added to. -/
  | file (path : Path)
  deriving DecidableEq, Repr, Inhabited

/--
How logging is set up: the least level of records of all programs and of this one, and the sinks. Level zero
is none.
-/
structure Setup where
  rootLevel : Level := .warning
  packageLevel : Level := 0
  sinks : List Sink := []
  deriving DecidableEq, Repr, Inhabited

namespace Setup

def threshold (setup : Setup) : Level :=
  if setup.packageLevel == 0 then setup.rootLevel else setup.packageLevel

/--
Whether a record is kept. Records without a positive level never are.
-/
def keeps (setup : Setup) (record : Record) : Bool :=
  0 < record.level && setup.threshold ≤ record.level

end Setup

def line (stamp : String) (record : Record) : String :=
  s!"{stamp}{record.logger} - {record.level.name} - {record.message}\n"

def openFile (host : Host) (name : String) : Except Fault (Host × Path) :=
  let path := Path.absolute host.cwd name
  if Path.hasNul name then .error .nulInPath
  else
    match host.writeBytes path.text id with
    | .ok host => .ok (host, path)
    | .error error => .error (.file error path.text)

def setUp (host : Host) (setup : Setup) (verbosity : Verbosity) (file : Option String) :
    Except Fault (Host × Setup) := do
  let level := verbosity.level
  let isVerbose := verbosity == .verbose
  let (host, files) ← match file.filter (!·.isEmpty) with
    | none => pure (host, [])
    | some name => do
      let (host, path) ← openFile host name
      pure (host, [Sink.file path])
  let setup :=
    if setup.sinks.isEmpty then
      { setup with rootLevel := level, sinks := .console isVerbose isVerbose isVerbose :: files }
    else
      setup
  return (host, { setup with packageLevel := level })

def appendLine (stamp : String) (host : Host) (path : Path) (record : Record) : Host :=
  let bytes := (line stamp record).toUTF8.toList
  match host.writeBytes path.text (· ++ bytes) with
  | .ok host => host
  | .error _ => host

/--
Sends a record to the sinks. Returns whether the console shows it; without any sink it shows warnings and
worse.
-/
def send (stamp : String) (host : Host) (setup : Setup) (record : Record) : Host × Bool :=
  if !setup.keeps record then
    (host, false)
  else if setup.sinks.isEmpty then
    (host, Level.warning ≤ record.level)
  else
    setup.sinks.foldl (fun (host, shown) sink =>
      match sink with
      | .console .. => (host, true)
      | .file path => (appendLine stamp host path record, shown)) (host, false)

end Log

end ParadigmScan
