import ParadigmScan.Proofs.CommandLine.Arguments
import ParadigmScan.Proofs.CommandLine.Atomicity
import ParadigmScan.Proofs.FileTree.Absolute
import ParadigmScan.Proofs.Settings.Exclusions

/-!
This module contains that a scan which is asked for on the command line comes to the same as one that is asked for
directly, although the command line takes the patterns apart, makes the path absolute and puts the patterns together
with those of the settings before the scan does all this again.
-/

namespace ParadigmScan

namespace Scan

theorem directory_congr {host : Host} {settings : Settings} {root root' : String}
    {patterns patterns' : List String}
    (hroot : Path.absolute host.cwd root = Path.absolute host.cwd root')
    (hpatterns : Settings.exclusions settings.excludePatterns patterns =
      Settings.exclusions settings.excludePatterns patterns') (session : ParserSession) :
    directory host session settings root patterns = directory host session settings root' patterns' := by
  unfold directory
  rw [hroot]
  rw [hpatterns]

end Scan

namespace CommandLine

theorem splitPatterns_intercalate {patterns : List String}
    (h : ∀ pattern ∈ patterns, pattern ≠ "" ∧ ',' ∉ pattern.toList) :
    splitPatterns (some (",".intercalate patterns)) = patterns := by
  by_cases hne : patterns = []
  . subst hne
    decide
  . unfold splitPatterns
    rw [Option.getD_some]
    rw [Path.map_splitOn_intercalate (by decide) hne fun pattern hpattern => (h pattern hpattern).2]
    rw [List.filter_eq_self]
    intro pattern hpattern
    simpa using (h pattern hpattern).1

structure Call where
  directory : String
  patterns : List String := []
  config : Option String := none
  verbose : Bool := false
  quiet : Bool := false

namespace Call

def overrides (call : Call) : Table Value :=
  [("verbose", .boolean call.verbose), ("quiet", .boolean call.quiet)]

def settings (call : Call) (host : Host) : Except Failure Settings :=
  Settings.load host (call.config.map Path.ofText) call.overrides

def result (call : Call) (host : Host) (session : ParserSession) : Except Failure Report :=
  (Scan.configured host session call.directory call.patterns (call.config.map Path.ofText)
    call.overrides).outcome.1

def request (call : Call) (json : Bool) : Request where
  directory := (Path.ofText call.directory).text
  exclude := some (",".intercalate call.patterns)
  json
  config := call.config.map Path.ofText
  verbose := call.verbose
  quiet := call.quiet

/--
Whenever the command line can be read, it is read as asking for the same, with commas between the patterns.
-/
def IsRead (call : Call) (read : Reader) (json : Bool) (argv : List String) : Prop :=
  ∀ request, read argv = .ok request → request = call.request json

def arguments (call : Call) (json : Bool) : Arguments where
  flags := (.exclude, ",".intercalate call.patterns) ::
    ((call.config.map fun text => (.config, text)).toList ++ (if json then [(.json, "")] else []) ++
      (if call.verbose then [(.verbose, "")] else []) ++ if call.quiet then [(.quiet, "")] else [])
  others := [call.directory]

structure IsUsable (call : Call) (host : Host) : Prop where
  config : ∀ text, call.config = some text →
    ∃ node, host.resolve (Path.ofText text).text = .ok node ∧ node.isDirectory = false
  directory : ∀ node, host.resolve (Path.ofText call.directory).text = .ok node → node.isFile = false

variable {call : Call} {host : Host} {json : Bool} {argv : List String} {session : ParserSession}

theorem has_help_arguments (call : Call) (json : Bool) : (call.arguments json).has .help = false := by
  obtain ⟨directory, patterns, config, verbose, quiet⟩ := call
  cases config <;> cases json <;> cases verbose <;> cases quiet <;> rfl

theorem value?_config_arguments (call : Call) (json : Bool) :
    (call.arguments json).value? .config = call.config := by
  obtain ⟨directory, patterns, config, verbose, quiet⟩ := call
  cases config <;> cases json <;> cases verbose <;> cases quiet <;> rfl

theorem value?_output_arguments (call : Call) (json : Bool) :
    (call.arguments json).value? .output = none := by
  obtain ⟨directory, patterns, config, verbose, quiet⟩ := call
  cases config <;> cases json <;> cases verbose <;> cases quiet <;> rfl

theorem request_arguments (call : Call) (json : Bool) :
    (call.arguments json).request = call.request json := by
  obtain ⟨directory, patterns, config, verbose, quiet⟩ := call
  cases config <;> cases json <;> cases verbose <;> cases quiet <;> rfl

theorem readArguments_arguments (call : Call) (json : Bool) :
    readArguments (call.arguments json).spelled {} = .ok (call.arguments json) := by
  obtain ⟨directory, patterns, config, verbose, quiet⟩ := call
  apply Arguments.readArguments_spelled
  cases config <;> cases json <;> cases verbose <;> cases quiet <;> simp [arguments, Flag.takesValue]

theorem areUsable_arguments_iff :
    (call.arguments json).AreUsable host ↔ call.IsUsable host := by
  constructor
  . rintro ⟨hconfig, -, hdirectory, -⟩
    rw [value?_config_arguments] at hconfig
    exact ⟨hconfig, hdirectory⟩
  . rintro ⟨hconfig, hdirectory⟩
    rw [← value?_config_arguments call json] at hconfig
    refine ⟨hconfig, ?_, hdirectory, Nat.le_refl 1⟩
    intro text node htext
    rw [value?_output_arguments] at htext
    cases htext

theorem readRequest_spelled_iff {request : Request} :
    readRequest host (call.arguments json).spelled = .ok request ↔
      call.IsUsable host ∧ request = call.request json := by
  rw [readRequest_eq_ok_iff (readArguments_arguments call json) (has_help_arguments call json)]
  rw [areUsable_arguments_iff]
  rw [request_arguments]

theorem isRead_spelled (call : Call) (host : Host) (json : Bool) :
    call.IsRead (readRequest host) json (call.arguments json).spelled := by
  intro request hrequest
  exact (readRequest_spelled_iff.mp hrequest).2

theorem exists_error_of_not_isUsable (h : ¬ call.IsUsable host) (json : Bool) (console : Console)
    (session : ParserSession) (stamp : String) :
    ∃ error, runCommand (readRequest host) console session host stamp (call.arguments json).spelled =
      .error error := by
  unfold runCommand
  cases hread : readRequest host (call.arguments json).spelled with
  | error error => exact ⟨error, rfl⟩
  | ok request => exact absurd (readRequest_spelled_iff.mp hread).1 h

theorem settings_request (call : Call) (json : Bool) (host : Host) :
    (call.request json).settings host = call.settings host := rfl

theorem absolute_request (hhost : host.WellFormed) :
    Path.absolute host.cwd (Path.absolute host.cwd (call.request json).directory).text =
      Path.absolute host.cwd call.directory := by
  have hstep : ∀ name ∈ host.cwd, Path.IsStep name := fun name hname =>
    (hhost.isName_cwd name hname).toIsStep
  rw [Path.absolute_text (Path.isCollapsed_absolute hstep _)]
  exact Path.absolute_text_ofText host.cwd call.directory

section Patterns

variable (hhost : host.WellFormed)
  (hpatterns : ∀ pattern ∈ call.patterns, pattern ≠ "" ∧ ',' ∉ pattern.toList)

include hpatterns

theorem exclusions_request (configured : List String) :
    Settings.exclusions configured (splitPatterns (call.request json).exclude) =
      Settings.exclusions configured call.patterns := by
  unfold request
  rw [splitPatterns_intercalate hpatterns]

include hhost

theorem scan_request (session : ParserSession) (settings : Settings) :
    (call.request json).scan host session settings =
      Scan.directory host session settings call.directory call.patterns := by
  -- The path was made absolute before, and the patterns already hold those of the settings.
  unfold Request.scan
  apply Scan.directory_congr (absolute_request hhost)
  rw [exclusions_request hpatterns]
  exact Settings.exclusions_exclusions _ _

end Patterns

theorem result_of_settings {settings : Settings} (h : call.settings host = .ok settings)
    (session : ParserSession) :
    call.result host session =
      (Scan.directory host session settings call.directory call.patterns).outcome.1 := by
  unfold result Scan.configured
  unfold Call.settings at h
  rw [h]
  rw [Scan.outcome_bind_of_ok (Scan.outcome_liftM _ _)]

theorem result_of_error {failure : Failure} (h : call.settings host = .error failure)
    (session : ParserSession) : call.result host session = .error failure := by
  unfold result Scan.configured
  unfold Call.settings at h
  rw [h]
  rw [Scan.outcome_bind_of_error (Scan.outcome_liftM _ _)]

theorem result_request (hhost : host.WellFormed)
    (hpatterns : ∀ pattern ∈ call.patterns, pattern ≠ "" ∧ ',' ∉ pattern.toList) (json : Bool)
    (session : ParserSession) :
    (call.request json).result host session = call.result host session := by
  cases hsettings : call.settings host with
  | error failure =>
    have hrequest : (call.request json).settings host = .error failure := hsettings
    rw [result_of_error hsettings]
    rw [Request.result_of_error hrequest]
  | ok settings =>
    have hrequest : (call.request json).settings host = .ok settings := hsettings
    rw [result_of_settings hsettings]
    rw [Request.result_of_settings hrequest]
    rw [scan_request hhost hpatterns]

def excluded (call : Call) (settings : Settings) : List String :=
  Settings.exclusions settings.excludePatterns call.patterns

def exclusionLines (call : Call) (settings : Settings) : List String :=
  let listed := ", ".intercalate (call.excluded settings)
  if (call.excluded settings).isEmpty then [] else [s!"Excluding: {listed}"]

def lines (call : Call) (host : Host) (settings : Settings) : List String :=
  let target := Path.absolute host.cwd call.directory
  let files := (Listing.list host
    { patterns := call.excluded settings, followLinks := settings.followLinks } target).1
  s!"Scanning: {target.text}" :: call.exclusionLines settings ++
    match host.isDirectory target with
    | .ok true => [s!"Found {files.length} .ts/.tsx files"]
    | _ => []

theorem lines_eq (call : Call) (host : Host) (session : ParserSession) (settings : Settings) :
    call.lines host settings =
      s!"Scanning: {(Path.absolute host.cwd call.directory).text}" :: call.exclusionLines settings ++
        countLines false
          (Scan.directory host session settings call.directory call.patterns).outcome.2.events := by
  unfold lines countLines
  simp only [Bool.false_eq_true, ↓reduceIte]
  rw [← Trace.found_eq]
  congr 1
  split
  . next hroot =>
    rw [Scan.found_directory hroot]
    rfl
  . next hroot =>
    rw [Scan.found_directory_of_not_isDirectory hroot]
    rfl

theorem progress_request (hhost : host.WellFormed)
    (hpatterns : ∀ pattern ∈ call.patterns, pattern ≠ "" ∧ ',' ∉ pattern.toList)
    {settings : Settings} (hsettings : call.settings host = .ok settings) (session : ParserSession) :
    (call.request json).progress host session = if json then [] else call.lines host settings := by
  cases json with
  | true => exact Request.progress_of_json rfl host session
  | false =>
    have htarget : Path.absolute host.cwd (call.request false).directory =
        Path.absolute host.cwd call.directory := Path.absolute_text_ofText host.cwd call.directory
    unfold Request.progress
    rw [settings_request]
    rw [hsettings]
    simp only
    rw [scan_request hhost hpatterns]
    rw [exclusions_request hpatterns]
    rw [htarget]
    rw [lines_eq call host session]
    rfl

theorem not_startsWith_excluding {before : String} {first : Char}
    (h : before.toList.head? = some first) (hne : first ≠ 'E') (text : String) :
    (before ++ text).startsWith "Excluding:" = false := by
  rw [Bool.eq_false_iff]
  intro hstarts
  rw [String.startsWith_string_iff] at hstarts
  rw [String.toList_append] at hstarts
  obtain ⟨rest, hrest⟩ := hstarts
  have hhead : (before.toList ++ text.toList).head? = some first := by
    rw [List.head?_append]
    rw [h]
    rfl
  have hexcluding : ("Excluding:".toList ++ rest).head? = some 'E' := rfl
  rw [← hrest] at hhead
  rw [hexcluding] at hhead
  cases hhead
  exact hne rfl

theorem filter_lines (call : Call) (host : Host) (settings : Settings) :
    (call.lines host settings).filter (·.startsWith "Excluding:") = call.exclusionLines settings := by
  have hscanning : ∀ target : String, s!"Scanning: {target}".startsWith "Excluding:" = false :=
    not_startsWith_excluding rfl (by decide)
  have hfound : ∀ count : Nat, s!"Found {count} .ts/.tsx files".startsWith "Excluding:" = false := by
    intro count
    rw [String.append_assoc]
    exact not_startsWith_excluding rfl (by decide) _
  have hexcluding : ∀ listed : String, s!"Excluding: {listed}".startsWith "Excluding:" = true := by
    intro listed
    rw [String.startsWith_string_iff]
    rw [String.toList_append]
    exact ⟨' ' :: listed.toList, rfl⟩
  unfold lines
  simp only
  rw [List.cons_append]
  simp only [List.filter_cons, hscanning, Bool.false_eq_true, ↓reduceIte]
  rw [List.filter_append]
  have hexclusion : (call.exclusionLines settings).filter (·.startsWith "Excluding:") =
      call.exclusionLines settings := by
    rw [List.filter_eq_self]
    unfold exclusionLines
    simp only
    split
    . simp
    . simpa using hexcluding _
  rw [hexclusion]
  split
  . simp only [List.filter_cons, hfound, Bool.false_eq_true, ↓reduceIte, List.filter_nil,
      List.append_nil]
  . exact List.append_nil _

section Executed

variable {read : Reader} {console : Console} {stamp : String} (hhost : host.WellFormed)
  (hpatterns : ∀ pattern ∈ call.patterns, pattern ≠ "" ∧ ',' ∉ pattern.toList)
  (hflags : (call.verbose && call.quiet) = false)
  (hlog : ∀ settings, call.settings host = .ok settings →
    settings.logFile.filter (!·.isEmpty) = none)
  (hread : call.IsRead read json argv)
  {run : Run} {code : Int} (hrun : runCommand read console session host stamp argv = .ok (run, code))

include hflags hlog hread hrun

theorem leaves_of_runCommand :
    Leaves session (call.request json) { host, console, stamp } (run, code) := by
  have honConsole : ({ host, console, stamp } : Run).setup.OnConsole := by
    intro sink hsink
    cases hsink
  unfold runCommand at hrun
  obtain ⟨request, hrequest, hfinal⟩ := bind_eq_ok_iff.mp hrun
  cases hread request hrequest
  rw [execute_of_request rfl rfl hflags] at hfinal
  rw [← Except.ok.inj hfinal]
  exact leaves_perform rfl hflags honConsole hlog

include hhost hpatterns

theorem printed_of_report {report : Report} {ratio : Option Ratio}
    (hreport : call.result host session = .ok report) (hratio : report.ratio = .ok ratio) :
    ∃ text, Format.write (if json then .json .compact else .text) report = .ok text ∧
      code = 0 ∧ run.stdout = text ++ "\n" := by
  have hleaves := leaves_of_runCommand hflags hlog hread hrun
  obtain ⟨text, htext⟩ := exists_write_of_ratio hratio (call.request json).format
  rw [← result_request hhost hpatterns json] at hreport
  obtain ⟨hstdout, -, -, hcode, -⟩ := hleaves.printed report text ⟨rfl, hflags, hreport, htext⟩
  rw [String.empty_append] at hstdout
  exact ⟨text, htext, hcode, hstdout⟩

theorem failed_of_problem {problem : Problem}
    (hproblem : call.result host session = .error (.problem problem)) :
    code = problem.exitCode ∧ run.stdout = "" := by
  have hleaves := leaves_of_runCommand hflags hlog hread hrun
  rw [← result_request hhost hpatterns json] at hproblem
  have hprints : ¬ ∃ report text, Prints host session (call.request json) report text := by
    rintro ⟨report, text, h⟩
    have hresult := h.result
    rw [hproblem] at hresult
    cases hresult
  exact ⟨hleaves.caused _ hproblem, (hleaves.failed hprints).2.1⟩

theorem told_of_settings {settings : Settings} (hsettings : call.settings host = .ok settings) :
    Explained console (call.result host session)
      (statusText console (if json then [] else call.lines host settings)) run.stderr code := by
  have htold := (leaves_of_runCommand hflags hlog hread hrun).told
  rw [progress_request hhost hpatterns hsettings] at htold
  rw [result_request hhost hpatterns] at htold
  rw [String.empty_append] at htold
  exact htold

end Executed

/--
The command line and a direct call come to the same, whatever reads the command line and however texts are shown. If the
command line is not refused, the report of the call is what is printed, and a problem of the call is one of the run, which
then prints nothing. Without `--json` the user is told which patterns are excluded, and these are the patterns that the
listing is given, although they are put together with those of the settings once more.
-/
theorem runCommand_agrees {host : Host} (hhost : host.WellFormed) (session : ParserSession)
    (console : Console) (stamp : String) (call : Call)
    (hpatterns : ∀ pattern ∈ call.patterns, pattern ≠ "" ∧ ',' ∉ pattern.toList)
    (hflags : (call.verbose && call.quiet) = false)
    (hlog : ∀ settings, call.settings host = .ok settings →
      settings.logFile.filter (!·.isEmpty) = none)
    {read : Reader} {json : Bool} {argv : List String} (hread : call.IsRead read json argv) :
    (∀ error, read argv = .error error →
      runCommand read console session host stamp argv = .error error) ∧
    ∀ request, read argv = .ok request →
      ∃ run code, runCommand read console session host stamp argv = .ok (run, code) ∧
        (∀ report ratio, call.result host session = .ok report → report.ratio = .ok ratio →
          ∃ text, Format.write (if json then .json .compact else .text) report = .ok text ∧
            code = 0 ∧ run.stdout = text ++ "\n") ∧
        (∀ problem, call.result host session = .error (.problem problem) →
          code = problem.exitCode ∧ run.stdout = "") ∧
        ∀ settings, call.settings host = .ok settings →
          Explained console (call.result host session)
            (statusText console (if json then [] else call.lines host settings)) run.stderr code ∧
          (call.lines host settings).filter (·.startsWith "Excluding:") = call.exclusionLines settings ∧
          Settings.exclusions settings.excludePatterns (call.excluded settings) =
            call.excluded settings := by
  constructor
  . intro error herror
    unfold runCommand
    rw [herror]
    rfl
  . intro request hrequest
    obtain ⟨⟨run, code⟩, hrun⟩ : ∃ final,
        runCommand read console session host stamp argv = .ok final := by
      unfold runCommand
      rw [hrequest]
      exact ⟨_, rfl⟩
    refine ⟨run, code, hrun, ?_, ?_, ?_⟩
    . intro report ratio hreport hratio
      exact printed_of_report hhost hpatterns hflags hlog hread hrun hreport hratio
    . intro problem hproblem
      exact failed_of_problem hhost hpatterns hflags hlog hread hrun hproblem
    . intro settings hsettings
      refine ⟨told_of_settings hhost hpatterns hflags hlog hread hrun hsettings, ?_, ?_⟩
      . exact filter_lines call host settings
      . exact Settings.exclusions_exclusions _ _

def reportCall : Call where
  directory := "/q"
  patterns := ["y"]

theorem settings_reportCall :
    reportCall.settings reportHost = .ok { excludePatterns := ["x"] } := by
  unfold Call.settings Settings.load
  rw [projectLayer_reportHost]
  cbv

theorem logFile_reportCall (settings : Settings) (h : reportCall.settings reportHost = .ok settings) :
    settings.logFile.filter (!·.isEmpty) = none := by
  rw [settings_reportCall] at h
  cases h
  rfl

theorem result_reportCall :
    reportCall.result reportHost Scan.oneClassParser =
      .ok { directory := "/q", files := 1, totals := { classes := 1 } } := by
  rw [result_of_settings settings_reportCall]
  apply outcome_reportHost
  unfold Scan.sources
  simp only [reportCall, absolute_reportHost]
  cbv

theorem ratio_reportCall :
    ∃ ratio, Report.ratio { directory := "/q", files := 1, totals := { classes := 1 } } = .ok ratio :=
  ⟨_, rfl⟩

theorem isUsable_reportCall : reportCall.IsUsable reportHost := by
  have hnode : ∃ entries, reportHost.resolve (Path.ofText "/q").text = .ok (.directory entries) := by
    refine ⟨[("a.ts", .file [97]), ("x.ts", .file [97])], ?_⟩
    cbv
  obtain ⟨entries, hnode⟩ := hnode
  constructor
  . intro text htext
    cases htext
  . intro node h
    simp only [reportCall] at h
    rw [hnode] at h
    cases h
    rfl

theorem runCommand_agrees_reportCall :
    reportHost.WellFormed ∧
      reportCall.IsRead (readRequest reportHost) false ["--exclude", "y", "--", "/q"] ∧
      ∃ run text,
        runCommand (readRequest reportHost) .plain Scan.oneClassParser reportHost ""
          ["--exclude", "y", "--", "/q"] = .ok (run, 0) ∧
        Report.toText { directory := "/q", files := 1, totals := { classes := 1 } } = .ok text ∧
        run.stdout = text ++ "\n" ∧
        run.stderr =
          statusText .plain ["Scanning: /q", "Excluding: x, y", "Found 1 .ts/.tsx files"] := by
  have hread := isRead_spelled reportCall reportHost false
  have hlines : reportCall.lines reportHost { excludePatterns := ["x"] } =
      ["Scanning: /q", "Excluding: x, y", "Found 1 .ts/.tsx files"] := by
    cbv
  obtain ⟨ratio, hratio⟩ := ratio_reportCall
  obtain ⟨-, hagrees⟩ := runCommand_agrees wellFormed_reportHost Scan.oneClassParser .plain "" reportCall
    (by decide) rfl logFile_reportCall hread
  obtain ⟨run, code, hrun, hprinted, -, htold⟩ :=
    hagrees _ (readRequest_spelled_iff.mpr ⟨isUsable_reportCall, rfl⟩)
  obtain ⟨text, htext, rfl, hstdout⟩ := hprinted _ _ result_reportCall hratio
  obtain ⟨hexplained, -⟩ := htold _ settings_reportCall
  rw [result_reportCall] at hexplained
  simp only [Bool.false_eq_true, ↓reduceIte, hlines] at hexplained
  exact ⟨wellFormed_reportHost, hread, run, text, hrun, htext, hstdout, hexplained.eq_of_ok⟩

def misguidedCall : Call where
  directory := "/q"
  config := some "n"

theorem result_misguidedCall (session : ParserSession) :
    ∃ problem, misguidedCall.result reportHost session = .error (.problem problem) := by
  have hfile : reportHost.isFile (Path.ofText "n") = .ok false := by
    cbv
  have hsettings : ∃ problem, misguidedCall.settings reportHost = .error (.problem problem) := by
    unfold Call.settings Settings.load
    rw [projectLayer_reportHost]
    unfold Settings.explicitLayer Settings.isFile
    simp only [misguidedCall, Option.map_some, hfile]
    exact ⟨_, rfl⟩
  obtain ⟨problem, hproblem⟩ := hsettings
  exact ⟨problem, result_of_error hproblem session⟩

theorem not_isUsable_misguidedCall : ¬ misguidedCall.IsUsable reportHost := by
  have hmissing : reportHost.resolve (Path.ofText "n").text = .error .notFound := by
    cbv
  intro h
  obtain ⟨node, hnode, -⟩ := h.config "n" rfl
  rw [hmissing] at hnode
  cases hnode

/--
A host with a link out of the directory `/p`. Behind the link, two dots do not lead back to where it is.
-/
def detourHost : Host where
  tree := .directory [
    ("p", .directory [
      ("f", .directory []), ("l", .link "../x/d"), ("paradigm-meter.toml", .file [])]),
    ("x", .directory [("d", .directory []), ("f", .file [])])]
  cwd := ["p"]
  denied := []

def detourCall : Call where
  directory := "l/../f"

theorem settings_detourCall : detourCall.settings detourHost = .ok {} := by
  have hproject := @projectLayer_of_file detourHost rfl rfl rfl rfl [] [] rfl (by cbv) (by cbv)
  unfold Call.settings Settings.load
  rw [hproject]
  cbv

theorem result_detourCall (session : ParserSession) :
    ∃ report, detourCall.result detourHost session = .ok report := by
  have hpath : Path.absolute detourHost.cwd detourCall.directory =
      { anchor := .root, names := ["p", "f"] } := by
    decide
  have hroot : detourHost.isDirectory (Path.absolute detourHost.cwd detourCall.directory) = .ok true := by
    rw [hpath]
    cbv
  have hsources : Scan.sources detourHost {} detourCall.directory detourCall.patterns = [] := by
    unfold Scan.sources
    rw [hpath]
    cbv
  obtain ⟨trace, -, hscan⟩ :=
    @Scan.outcome_directory detourHost session {} detourCall.directory detourCall.patterns hroot {}
  rw [result_of_settings settings_detourCall]
  rw [hscan]
  rw [hsources]
  exact ⟨_, rfl⟩

theorem not_isUsable_detourCall : ¬ detourCall.IsUsable detourHost := by
  have hfile : detourHost.resolve (Path.ofText "l/../f").text = .ok (.file []) := by
    cbv
  intro h
  cases h.directory _ hfile

theorem stderr_json_reportCall :
    ∃ run, runCommand (readRequest reportHost) .plain Scan.oneClassParser reportHost ""
      (reportCall.arguments true).spelled = .ok (run, 0) ∧ run.stderr = "" := by
  have hread := isRead_spelled reportCall reportHost true
  have hrequest : readRequest reportHost (reportCall.arguments true).spelled = .ok (reportCall.request true) :=
    readRequest_spelled_iff.mpr ⟨isUsable_reportCall, rfl⟩
  obtain ⟨⟨run, code⟩, hrun⟩ : ∃ final, runCommand (readRequest reportHost) .plain Scan.oneClassParser
      reportHost "" (reportCall.arguments true).spelled = .ok final := by
    unfold runCommand
    rw [hrequest]
    exact ⟨_, rfl⟩
  obtain ⟨ratio, hratio⟩ := ratio_reportCall
  obtain ⟨-, -, rfl, -⟩ := printed_of_report wellFormed_reportHost (by decide) rfl logFile_reportCall hread
    hrun result_reportCall hratio
  have htold := told_of_settings wellFormed_reportHost (by decide) rfl logFile_reportCall hread hrun
    settings_reportCall
  rw [result_reportCall] at htold
  refine ⟨run, hrun, ?_⟩
  rw [htold.eq_of_ok]
  exact statusText_nil .plain

/--
A missing config file is a problem of the call, but on the command line it is no failed run, and neither is a path that
leads to a file if it is looked up and to a directory if two dots are removed first. With `--json` nothing is said about
patterns although there are some, and not all characters are shown.
-/
theorem runCommand_refuses_misguidedCall :
    (∃ problem, misguidedCall.result reportHost Scan.oneClassParser = .error (.problem problem)) ∧
    (∃ error, runCommand (readRequest reportHost) .plain Scan.oneClassParser reportHost ""
      ["--exclude", "", "--config", "n", "--", "/q"] = .error error) ∧
    (∃ report, detourCall.result detourHost Scan.oneClassParser = .ok report) ∧
    (∃ error, runCommand (readRequest detourHost) .plain Scan.oneClassParser detourHost ""
      ["--exclude", "", "--", "l/../f"] = .error error) ∧
    reportCall.excluded { excludePatterns := ["x"] } = ["x", "y"] ∧
    (∃ run, runCommand (readRequest reportHost) .plain Scan.oneClassParser reportHost ""
      ["--exclude", "y", "--json", "--", "/q"] = .ok (run, 0) ∧ run.stderr = "") ∧
    Console.plain.progress "Excluding: a\tb" = "Excluding: a    b" := by
  refine ⟨result_misguidedCall _, ?_, result_detourCall _, ?_, by cbv, stderr_json_reportCall, by cbv⟩
  . exact exists_error_of_not_isUsable not_isUsable_misguidedCall false _ _ _
  . exact exists_error_of_not_isUsable not_isUsable_detourCall false _ _ _

end Call

end CommandLine

end ParadigmScan
