import ParadigmScan.Dialect
import ParadigmScan.Path
import ParadigmScan.Value

/-!
This module contains the problems that the program reports in its own words. A problem has a message and
details; its text shows both.
-/

namespace ParadigmScan

inductive Problem where
  | general (message : String) (details : List (String × String))
  | analysis (message : String) (details : List (String × String))
  | configuration (message : String) (details : List (String × String))
  /-- A source cannot be read. -/
  | fileAccess (path : Path) (reason : String)
  /-- A source cannot be turned into a syntax tree. -/
  | parsing (path : Path) (dialect : String) (reason : String)
  /-- There is no directory to scan. -/
  | invalidPath (path : Path) (reason : String)
  /-- A setting is unknown or has a value that it cannot have. -/
  | invalidSetting (key : String) (value : Value) (reason : String) (source : Option String)
  /-- A problem of a kind that only the parser knows, with what the caller is told. -/
  | foreign (name text : String) (code : Int)
  deriving Inhabited

namespace Problem

def name : Problem → String
  | general .. => "ParadigmMeterError"
  | analysis .. => "AnalysisError"
  | configuration .. => "ConfigurationError"
  | fileAccess .. => "FileAccessError"
  | parsing .. => "ParsingError"
  | invalidPath .. => "InvalidPathError"
  | invalidSetting .. => "InvalidConfigError"
  | foreign name _ _ => name

def isAnalysis : Problem → Bool
  | analysis .. | fileAccess .. | parsing .. => true
  | _ => false

def isConfiguration : Problem → Bool
  | configuration .. | invalidPath .. | invalidSetting .. => true
  | _ => false

def message : Problem → String
  | general message _ | analysis message _ | configuration message _ => message
  | fileAccess path _ => s!"Cannot access file: {path.text}"
  | parsing path dialect _ => s!"Failed to parse {dialect} file: {path.text}"
  | invalidPath path _ => s!"Cannot scan {path.text}"
  | invalidSetting key value _ _ => s!"Invalid configuration for {key}: {value.describe}"
  | foreign _ text _ => text

def details : Problem → List (String × String)
  | general _ details | analysis _ details | configuration _ details => details
  | fileAccess path reason => [("filepath", path.text), ("reason", reason)]
  | parsing path dialect reason =>
    [("filepath", path.text), ("dialect", dialect), ("reason", reason)]
  | invalidPath _ reason => [("reason", reason)]
  | invalidSetting key _ reason source =>
    let source := (source.filter (!·.isEmpty)).toList
    [("key", key), ("reason", reason)] ++ source.map (("source", ·))
  | foreign .. => []

def text (problem : Problem) : String :=
  if problem.details.isEmpty then
    problem.message
  else
    let details := problem.details.map fun (key, value) => s!"{key}={value}"
    let details := ", ".intercalate details
    s!"{problem.message} ({details})"

def exitCode : Problem → Int
  | foreign _ _ code => code
  | _ => 1

end Problem

end ParadigmScan
