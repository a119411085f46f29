import ParadigmScan.Encoding.Basic
import ParadigmScan.Failure
import ParadigmScan.Log.Record
import ParadigmScan.Table

/-!
This module contains the settings of a scan: how their values are checked and how they are shown.
-/

namespace ParadigmScan

inductive Verbosity where
  | quiet
  | normal
  | verbose
  deriving DecidableEq, Repr, Inhabited

namespace Verbosity

def name : Verbosity → String
  | quiet => "quiet"
  | normal => "normal"
  | verbose => "verbose"

def all : List Verbosity := [quiet, normal, verbose]

def ofName? (name : String) : Option Verbosity :=
  all.find? (·.name == name)

def level : Verbosity → Log.Level
  | quiet => .error
  | normal => .warning
  | verbose => .debug

/--
The verbosity that a value names. Values that hold other values cannot even be looked up.
-/
def ofValue : Value → Except Fault Verbosity
  | .text name =>
    match ofName? name with
    | some verbosity => .ok verbosity
    | none => .error (.unknownVerbosity (.text name))
  | value =>
    match value with
    | .list _ | .table _ => .error (.unhashable value.typeName)
    | _ => .error (.unknownVerbosity value)

end Verbosity

structure Settings where
  /-- Parts of paths that are left out on every run. -/
  excludePatterns : List String := []
  /-- The name of the encoding of sources. -/
  encoding : String := "utf-8"
  /-- Whether links are taken for what they lead to. -/
  followLinks : Bool := false
  verbosity : Verbosity := .normal
  /-- A file that log records are written to as well. -/
  logFile : Option String := none
  deriving DecidableEq, Repr, Inhabited

namespace Settings

def keys : List String :=
  ["exclude_patterns", "encoding", "follow_symlinks", "verbosity", "log_file"]

def textsOf? : List Value → Option (List String)
  | [] => some []
  | .text t :: rest => (textsOf? rest).map (t :: ·)
  | _ :: _ => none

def invalid (key : String) (value : Value) (reason : String) : Failure :=
  .problem (.invalidSetting key value reason none)

def checkPatterns (value : Value) : Except Failure (List String) :=
  let patterns := match value with
    | .list items => textsOf? items
    | _ => none
  match patterns with
  | some patterns => .ok patterns
  | none => .error (invalid "exclude_patterns" value "must be a list of strings")

def checkEncoding (value : Value) : Except Failure String :=
  match value with
  | .text name =>
    if Path.hasNul name then .error (.fault .nulInName)
    else if (Encoding.ofName? name).isSome then .ok name
    else .error (invalid "encoding" value "unknown text encoding")
  | value => .error (invalid "encoding" value "must be a string")

def checkFollow (value : Value) : Except Failure Bool :=
  match value with
  | .boolean flag => .ok flag
  | value => .error (invalid "follow_symlinks" value "must be true or false")

def checkVerbosity (value : Value) : Except Failure Verbosity :=
  let found := match value with
    | .text name => Verbosity.ofName? name
    | _ => none
  match found with
  | some verbosity => .ok verbosity
  | none =>
    let names := ", ".intercalate (Verbosity.all.map Verbosity.name)
    .error (invalid "verbosity" value s!"must be one of: {names}")

def checkLogFile (value : Value) : Except Failure (Option String) :=
  match value with
  | .null => .ok none
  | .text path => .ok (some path)
  | value => .error (invalid "log_file" value "must be a file path")

def valueOr (values : Table Value) (key : String) (default : α) (check : Value → Except Failure α) :
    Except Failure α :=
  match values.lookup key with
  | some value => check value
  | none => .ok default

def ofValues (values : Table Value) : Except Failure Settings := do
  let base : Settings := {}
  return {
    excludePatterns := ← valueOr values "exclude_patterns" base.excludePatterns checkPatterns
    encoding := ← valueOr values "encoding" base.encoding checkEncoding
    followLinks := ← valueOr values "follow_symlinks" base.followLinks checkFollow
    verbosity := ← valueOr values "verbosity" base.verbosity checkVerbosity
    logFile := ← valueOr values "log_file" base.logFile checkLogFile }

/--
The settings given by name. A name that no setting has is refused before any value is checked.
-/
def ofArguments (platform : Platform) (values : Table Value) : Except Failure Settings :=
  match values.find? (!keys.contains ·.1) with
  | some ("self", _) => .error (.fault (.repeatedArgument "self"))
  | some (name, _) => .error (.fault (.unexpectedArgument name))
  | none => (ofValues values).mapError (Failure.worded platform)

def toValues (settings : Settings) : Table Value :=
  [("exclude_patterns", .list (settings.excludePatterns.map .text)),
    ("encoding", .text settings.encoding),
    ("follow_symlinks", .boolean settings.followLinks),
    ("verbosity", .text settings.verbosity.name),
    ("log_file", (settings.logFile.map Value.text).getD .null)]

def describe (settings : Settings) : String :=
  let fields := settings.toValues.map fun (key, value) => s!"{key}={value.describe}"
  "AnalysisConfig(" ++ ", ".intercalate fields ++ ")"

/--
The patterns to exclude: those of the settings before those of a run, without empty ones and repetitions.
-/
def exclusions (configured run : List String) : List String :=
  (configured ++ run).foldl add []
where
  add (patterns : List String) (pattern : String) : List String :=
    if pattern.isEmpty || patterns.contains pattern then patterns else patterns ++ [pattern]

end Settings

end ParadigmScan
