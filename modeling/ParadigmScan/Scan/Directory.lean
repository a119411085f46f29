import ParadigmScan.Listing
import ParadigmScan.Report
import ParadigmScan.Scan.SourceFile
import ParadigmScan.Settings.Load

/-!
This module contains the scan of a directory: its source files are listed, each is counted, and the tallies
are added up.
-/

namespace ParadigmScan

namespace Scan

def logAll : List Log.Record → Scan Unit
  | [] => pure ()
  | record :: rest => do
    log record
    logAll rest

def tallies (host : Host) (parser : ParserSession) (encodingName : String) : List Path → Scan (List Tally)
  | [] => pure []
  | path :: rest => do
    let tally ← SourceFile.tally host parser encodingName path
    let others ← tallies host parser encodingName rest
    return tally :: others

/--
Scans a directory. The parts of paths in `patterns` are left out in addition to those of the settings.
-/
def directory (host : Host) (parser : ParserSession) (settings : Settings) (root : String)
    (patterns : List String) : Scan Report := do
  let path := Path.absolute host.cwd root
  match host.isDirectory path with
  | .error error => pass (.file error path.text)
  | .ok false => report (.invalidPath path "not an existing directory")
  | .ok true =>
    let options : Listing.Options := {
      patterns := Settings.exclusions settings.excludePatterns patterns
      followLinks := settings.followLinks }
    let (files, records) := Listing.list host options path
    logAll records
    debug "analysis.engine" s!"Found {files.length} source files under {path.text}"
    emit (.found files.length)
    let tallies ← tallies host parser settings.encoding files
    return .ofTallies path.text files.length tallies

def configured (host : Host) (parser : ParserSession) (root : String) (patterns : List String)
    (file : Option Path) (overrides : Table Value) : Scan Report := do
  let settings ← Settings.load host file overrides
  directory host parser settings root patterns

end Scan

end ParadigmScan
