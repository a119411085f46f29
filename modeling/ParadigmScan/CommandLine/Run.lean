import ParadigmScan.CommandLine.Options
import ParadigmScan.Log.Sinks
import ParadigmScan.Scan.Directory

/-!
This module contains a run of the program: from a command line to what is printed, logged and written.
-/

namespace ParadigmScan

namespace CommandLine

def version : String := "0.1.0"

/--
The patterns in the value of the option for exclusions: parts between commas, without empty ones.
-/
def splitPatterns (value : Option String) : List String :=
  (((value.getD "").toList.splitOn ',').map String.ofList).filter (!·.isEmpty)

/--
How the console shows the lines about the progress of a run and the reason why a run ended early.
-/
structure Console where
  progress : String → String
  complaint : String → String
  deriving Inhabited

def isHiddenControl (c : Char) : Bool :=
  [7, 8, 11, 12, 13].contains c.toNat

def consoleText (text : String) : String :=
  String.ofList (go 0 (text.toList.filter (!isHiddenControl ·)))
where
  go (column : Nat) : List Char → List Char
    | [] => []
    | '\n' :: rest => '\n' :: go 0 rest
    | '\t' :: rest =>
      let width := 8 - column % 8
      List.replicate width ' ' ++ go (column + width) rest
    | c :: rest => c :: go (column + 1) rest

def Console.plain : Console where
  progress := consoleText
  complaint := consoleText

/--
A run under way: the files as they are now, how logging is set up, and what was printed and logged so far.
-/
structure Run where
  host : Host
  console : Console := .plain
  setup : Log.Setup := {}
  /-- The text in front of every line of a log file. -/
  stamp : String := ""
  stdout : String := ""
  stderr : String := ""
  /-- The records that the console showed. -/
  shown : List Log.Record := []
  deriving Inhabited

namespace Run

def status (run : Run) (text : String) : Run :=
  { run with stderr := run.stderr ++ run.console.progress text ++ "\n" }

def complain (run : Run) (text : String) : Run :=
  { run with stderr := run.stderr ++ run.console.complaint text ++ "\n" }

def print (run : Run) (text : String) : Run :=
  { run with stdout := run.stdout ++ text }

def log (run : Run) (record : Log.Record) : Run :=
  let (host, shown) := Log.send run.stamp run.host run.setup record
  { run with host, shown := if shown then run.shown ++ [record] else run.shown }

/--
Follows a step of a scan.
-/
def follow (json : Bool) (run : Run) : Event → Run
  | .logged record => run.log record
  | .found files => if json then run else run.status s!"Found {files} .ts/.tsx files"
  | .parsed _ _ => run

end Run

def logger : String := Log.loggerName "cli.scan"

abbrev Step := ExceptT Failure (StateM Run)

def configure (request : Request) : Step Settings := do
  let settings ← Settings.load (← get).host request.config
    [("verbose", .boolean request.verbose), ("quiet", .boolean request.quiet)]
  let run ← get
  match Log.setUp run.host run.setup settings.verbosity settings.logFile with
  | .error fault => throw (.fault fault)
  | .ok (host, setup) => set { run with host, setup }
  modify (·.log (Log.debug logger s!"Loaded settings: {settings.describe}"))
  return settings

def announce (request : Request) (target : Path) (patterns : List String) : Step Unit := do
  if !request.json then
    modify (·.status s!"Scanning: {target.text}")
    if !patterns.isEmpty then
      let listed := ", ".intercalate patterns
      modify (·.status s!"Excluding: {listed}")

def scan (parser : ParserSession) (request : Request) (settings : Settings) (target : Path)
    (patterns : List String) : Step Report := do
  let run ← get
  let (result, trace) := (Scan.directory run.host parser settings target.text patterns).outcome
  set (trace.events.foldl (Run.follow request.json) run)
  result

def printReport (request : Request) (report : Report) : Step Unit := do
  let format : Format := if request.json then .json .compact else .text
  match format.write report with
  | .error error => throw (.fault (.ratio error))
  | .ok text => modify (·.print (text ++ "\n"))

def writeReport (request : Request) (report : Report) : Step Unit := do
  match request.output with
  | none => pure ()
  | some path =>
    match report.toJsonText (.indented "  ") with
    | .error error => throw (.fault (.ratio error))
    | .ok text =>
      if Path.hasNul path.text then throw (.fault .nulInPath)
      let run ← get
      match run.host.writeBytes path.text fun _ => (text ++ "\n").toUTF8.toList with
      | .ok host => set { run with host }
      | .error error =>
        let reason := s!"Cannot write report: {error.message path.text}"
        throw (.problem (.fileAccess path reason))

def perform (parser : ParserSession) (request : Request) : Step Unit := do
  let settings ← configure request
  let target := Path.absolute (← get).host.cwd request.directory
  let patterns := Settings.exclusions settings.excludePatterns (splitPatterns request.exclude)
  announce request target patterns
  let report ← scan parser request settings target patterns
  printReport request report
  writeReport request report

/--
Tells the user why a run ended early, and returns what the caller is told. If the parser left the program, this is up to
the parser.
-/
def explain (failure : Failure) (run : Run) : Run × Int :=
  match failure with
  | .fault (.parser (.exit code words)) => ({ run with stderr := run.stderr ++ words }, code)
  | .problem problem =>
    let run := run.log (Log.debug logger s!"{problem.name}: {problem.text}")
    (run.complain s!"Error: {problem.text}", problem.exitCode)
  | .fault (.parser (.interrupted _)) =>
    let run := run.log { level := .info, logger, message := "Scan interrupted by user" }
    (run.complain "\nScan interrupted", 130)
  | .fault fault =>
    let run := run.log { level := .error, logger, message := "Unexpected error during scan" }
    (run.complain s!"Unexpected error: {fault.message}", 1)

def helpText : String :=
  "Usage: paradigm-meter [OPTIONS] [DIRECTORY]\n\n" ++
    "Report the ratio of OOP to FP constructs in .ts/.tsx files.\n\n" ++
    "  -e, --exclude TEXT  Comma-separated path substrings to exclude\n" ++
    "      --json          Print a single JSON object instead of the text summary\n" ++
    "  -o, --output FILE   Also write the JSON report to this file\n" ++
    "  -c, --config FILE   Configuration file path (TOML format)\n" ++
    "  -v, --verbose       Enable verbose (DEBUG) logging\n" ++
    "  -q, --quiet         Suppress all but ERROR logging\n" ++
    "      --version       Show version and exit\n" ++
    "      --help          Show this message and exit\n"

/--
Does what the command line asks for. Returns what happened and what the caller is told.
-/
def execute (parser : ParserSession) (request : Request) (run : Run) : Run × Int :=
  if request.help then
    (run.print helpText, 0)
  else if request.version then
    (run.print s!"paradigm-meter {version}\n", 0)
  else if request.verbose && request.quiet then
    (run.complain "Error: --verbose and --quiet are mutually exclusive", 1)
  else
    match (perform parser request).run.run run with
    | (.ok (), run) => (run, 0)
    | (.error failure, run) => explain failure run

abbrev Reader := List String → Except UsageError Request

def runCommand (read : Reader) (console : Console) (parser : ParserSession) (host : Host)
    (stamp : String) (argv : List String) : Except UsageError (Run × Int) := do
  let request ← read argv
  return execute parser request { host, console, stamp }

end CommandLine

end ParadigmScan
