import ParadigmScan.CommandLine.Run
import ParadigmScan.Proofs.FileTree.Writing
import ParadigmScan.Proofs.Ratio.Forms
import ParadigmScan.Proofs.Scan.Announcement
import ParadigmScan.Proofs.Scan.Composition
import ParadigmScan.Proofs.Scan.Interruption
import ParadigmScan.Proofs.Settings.Faults

/-!
This module contains what a run leaves behind. A run that fails before its report is written leaves nothing behind
but words for the user, and a run that does not fail leaves the whole report.
-/

namespace ParadigmScan

namespace Log

def Setup.OnConsole (setup : Setup) : Prop :=
  ∀ sink ∈ setup.sinks, ∃ showTime showPath showLocals, sink = .console showTime showPath showLocals

theorem fst_foldl_of_console {next : Host × Bool → Sink → Host × Bool}
    (hnext : ∀ state showTime showPath showLocals,
      (next state (.console showTime showPath showLocals)).1 = state.1)
    {sinks : List Sink}
    (hsinks : ∀ sink ∈ sinks, ∃ showTime showPath showLocals, sink = .console showTime showPath showLocals)
    (state : Host × Bool) : (sinks.foldl next state).1 = state.1 := by
  induction sinks generalizing state with
  | nil => rfl
  | cons sink sinks ih =>
    rw [List.forall_mem_cons] at hsinks
    obtain ⟨⟨showTime, showPath, showLocals, rfl⟩, hsinks⟩ := hsinks
    rw [List.foldl_cons]
    rw [ih hsinks]
    exact hnext state showTime showPath showLocals

theorem send_of_onConsole {setup : Setup} (h : setup.OnConsole) (stamp : String) (host : Host)
    (record : Record) : (send stamp host setup record).1 = host := by
  unfold send
  split
  . rfl
  . split
    . rfl
    . exact fst_foldl_of_console (fun _ _ _ _ => rfl) h (host, false)

theorem setUp_of_no_file {setup : Setup} (h : setup.OnConsole) (host : Host) (verbosity : Verbosity)
    {file : Option String} (hfile : file.filter (!·.isEmpty) = none) :
    ∃ setup', setUp host setup verbosity file = .ok (host, setup') ∧ setup'.OnConsole := by
  unfold setUp
  rw [hfile]
  refine ⟨_, rfl, ?_⟩
  intro sink hsink
  simp only at hsink
  split at hsink
  . rw [List.mem_singleton] at hsink
    exact ⟨_, _, _, hsink⟩
  . exact h sink hsink

end Log

namespace CommandLine

def statusText (console : Console) (lines : List String) : String :=
  String.join (lines.map fun line => console.progress line ++ "\n")

@[simp]
theorem statusText_nil (console : Console) : statusText console [] = "" := by
  simp [statusText]

@[simp]
theorem statusText_singleton (console : Console) (line : String) :
    statusText console [line] = console.progress line ++ "\n" := by
  simp [statusText, String.join_cons]

theorem statusText_append (console : Console) (lines lines' : List String) :
    statusText console (lines ++ lines') = statusText console lines ++ statusText console lines' := by
  simp [statusText, String.join_append]

def countLines (json : Bool) (events : List Event) : List String :=
  if json then [] else (events.filterMap Event.found?).map fun files => s!"Found {files} .ts/.tsx files"

theorem countLines_cons (json : Bool) (event : Event) (events : List Event) :
    countLines json (event :: events) = countLines json [event] ++ countLines json events := by
  cases json with
  | true => rfl
  | false => cases event <;> rfl

namespace Run

/--
Nothing happened that could be noticed later, apart from these lines for the user.
-/
structure Keeps (lines : List String) (run run' : Run) : Prop where
  host : run'.host = run.host
  console : run'.console = run.console
  stdout : run'.stdout = run.stdout
  stderr : run'.stderr = run.stderr ++ statusText run.console lines
  onConsole : run'.setup.OnConsole

variable {json : Bool} {lines lines' : List String} {run run' run'' : Run}

theorem Keeps.refl (h : run.setup.OnConsole) : Keeps [] run run :=
  ⟨rfl, rfl, rfl, by simp, h⟩

theorem Keeps.trans (h : Keeps lines run run') (h' : Keeps lines' run' run'') :
    Keeps (lines ++ lines') run run'' where
  host := h'.host.trans h.host
  console := h'.console.trans h.console
  stdout := h'.stdout.trans h.stdout
  stderr := by
    rw [h'.stderr]
    rw [h.stderr]
    rw [h.console]
    rw [statusText_append]
    rw [String.append_assoc]
  onConsole := h'.onConsole

theorem log_eq (h : run.setup.OnConsole) (record : Log.Record) :
    ∃ shown, run.log record = { run with shown } := by
  unfold log
  have hhost := Log.send_of_onConsole h run.stamp run.host record
  cases hsend : Log.send run.stamp run.host run.setup record with
  | mk host shown =>
    rw [hsend] at hhost
    simp only at hhost
    subst hhost
    exact ⟨_, rfl⟩

theorem keeps_log (h : run.setup.OnConsole) (record : Log.Record) :
    Keeps [] run (run.log record) := by
  obtain ⟨shown, hlog⟩ := log_eq h record
  rw [hlog]
  exact ⟨rfl, rfl, rfl, by simp, h⟩

theorem keeps_status (h : run.setup.OnConsole) (text : String) :
    Keeps [text] run (run.status text) := by
  refine ⟨rfl, rfl, rfl, ?_, h⟩
  simp [status, String.append_assoc]

theorem keeps_follow (h : run.setup.OnConsole) (json : Bool) (event : Event) :
    Keeps (countLines json [event]) run (run.follow json event) := by
  cases json with
  | true =>
    cases event with
    | logged record => exact keeps_log h record
    | found | parsed => exact Keeps.refl h
  | false =>
    cases event with
    | logged record => exact keeps_log h record
    | found files => exact keeps_status h _
    | parsed dialect bytes => exact Keeps.refl h

theorem keeps_foldl_follow (h : run.setup.OnConsole) (json : Bool) (events : List Event) :
    Keeps (countLines json events) run (events.foldl (follow json) run) := by
  induction events generalizing run with
  | nil =>
    cases json <;> exact Keeps.refl h
  | cons event events ih =>
    have hfollow := keeps_follow h json event
    rw [countLines_cons]
    exact hfollow.trans (ih hfollow.onConsole)

end Run

namespace Request

def settings (request : Request) (host : Host) : Except Failure Settings :=
  Settings.load host request.config
    [("verbose", .boolean request.verbose), ("quiet", .boolean request.quiet)]

def scan (request : Request) (host : Host) (session : ParserSession) (settings : Settings) :
    Scan Report :=
  Scan.directory host session settings (Path.absolute host.cwd request.directory).text
    (Settings.exclusions settings.excludePatterns (splitPatterns request.exclude))

def result (request : Request) (host : Host) (session : ParserSession) : Except Failure Report := do
  let settings ← request.settings host
  (request.scan host session settings).outcome.1

def format (request : Request) : Format :=
  if request.json then .json .compact else .text

def heading (request : Request) (target : Path) (patterns : List String) : List String :=
  let listed := ", ".intercalate patterns
  if request.json then []
  else s!"Scanning: {target.text}" :: if patterns.isEmpty then [] else [s!"Excluding: {listed}"]

def progress (request : Request) (host : Host) (session : ParserSession) : List String :=
  match request.settings host with
  | .error _ => []
  | .ok settings =>
    request.heading (Path.absolute host.cwd request.directory)
        (Settings.exclusions settings.excludePatterns (splitPatterns request.exclude)) ++
      countLines request.json (request.scan host session settings).outcome.2.events

theorem result_of_settings {request : Request} {host : Host} {settings : Settings}
    (h : request.settings host = .ok settings) (session : ParserSession) :
    request.result host session = (request.scan host session settings).outcome.1 := by
  unfold result
  rw [h]
  rfl

theorem result_of_error {request : Request} {host : Host} {failure : Failure}
    (h : request.settings host = .error failure) (session : ParserSession) :
    request.result host session = .error failure := by
  unfold result
  rw [h]
  rfl

theorem progress_of_json {request : Request} (h : request.json = true) (host : Host)
    (session : ParserSession) : request.progress host session = [] := by
  unfold progress
  split
  . rfl
  . simp [heading, countLines, h]

end Request

def codeOf : Failure → Int
  | .problem problem => problem.exitCode
  | .fault (.parser (.exit code _)) => code
  | .fault (.parser (.interrupted _)) => 130
  | .fault _ => 1

def complaint : Failure → String
  | .problem problem => s!"Error: {problem.text}"
  | .fault (.parser (.interrupted _)) => "\nScan interrupted"
  | .fault fault => s!"Unexpected error: {fault.message}"

/--
What a failure leaves on the console: a complaint, or what the parser left there when it left the program.
-/
def told (console : Console) : Failure → String
  | .fault (.parser (.exit _ words)) => words
  | failure => console.complaint (complaint failure) ++ "\n"

variable {session : ParserSession} {request : Request} {run : Run}

theorem codeOf_cases (failure : Failure) :
    (∃ code, Failure.Ends (ParserFault.Returns code) (.error failure : Except Failure Unit) ∧
      codeOf failure = code) ∨
    (Failure.Ends ParserFault.IsInterruption (.error failure : Except Failure Unit) ∧
      codeOf failure = 130) ∨
    (failure.isFinal = false ∧ codeOf failure = 1) := by
  cases failure with
  | problem problem =>
    cases problem with
    | foreign name text code =>
      exact .inl ⟨code, ⟨.problem (.foreign name text code), rfl, .inr ⟨name, text, rfl⟩, rfl⟩, rfl⟩
    | _ => exact .inr (.inr ⟨rfl, rfl⟩)
  | fault fault =>
    cases fault with
    | parser fault =>
      cases fault with
      | exit code words => exact .inl ⟨code, ⟨.exit code words, rfl, .inl ⟨words, rfl⟩, rfl⟩, rfl⟩
      | interrupted message =>
        exact .inr (.inl ⟨⟨.interrupted message, rfl, ⟨message, rfl⟩, rfl⟩, rfl⟩)
      | _ => exact .inr (.inr ⟨rfl, rfl⟩)
    | _ => exact .inr (.inr ⟨rfl, rfl⟩)

theorem codeOf_of_returns {failure : Failure} {code : Int}
    (h : Failure.Ends (ParserFault.Returns code) (.error failure : Except Failure Unit)) :
    codeOf failure = code := by
  obtain ⟨fault, -, ⟨words, rfl⟩ | ⟨name, text, rfl⟩, heq⟩ := h
  . cases heq
    rfl
  . cases heq
    rfl

theorem explain_eq (h : run.setup.OnConsole) (failure : Failure) :
    ∃ shown, explain failure run =
      ({ run with shown, stderr := run.stderr ++ told run.console failure }, codeOf failure) := by
  have hcomplain : ∀ record code, ∃ shown,
      ((run.log record).complain (complaint failure), code) =
        ({ run with
            shown
            stderr := run.stderr ++ (run.console.complaint (complaint failure) ++ "\n") },
          (code : Int)) := by
    intro record code
    obtain ⟨shown, hlog⟩ := Run.log_eq h record
    refine ⟨shown, ?_⟩
    rw [hlog]
    simp [Run.complain, String.append_assoc]
  cases failure with
  | problem problem => exact hcomplain _ _
  | fault fault =>
    cases fault with
    | parser fault =>
      cases fault with
      | exit code words => exact ⟨run.shown, rfl⟩
      | _ => exact hcomplain _ _
    | _ => exact hcomplain _ _

theorem run_get (run : Run) : (get : Step Run).run.run run = (.ok run, run) := rfl

theorem run_liftM {α : Type} (result : Except Failure α) (run : Run) :
    (liftM result : Step α).run.run run = (result, run) := by
  cases result <;> rfl

theorem run_configure (hrun : run.setup.OnConsole) {settings : Settings}
    (hsettings : request.settings run.host = .ok settings)
    (hlog : settings.logFile.filter (!·.isEmpty) = none) :
    ∃ run', (configure request).run.run run = (.ok settings, run') ∧ run.Keeps [] run' := by
  obtain ⟨setup, hsetUp, honConsole⟩ := Log.setUp_of_no_file hrun run.host settings.verbosity hlog
  have hkeeps : run.Keeps [] { run with setup } := ⟨rfl, rfl, rfl, by simp, honConsole⟩
  unfold Request.settings at hsettings
  unfold configure
  rw [run_bind_of_ok (run_get run)]
  rw [hsettings]
  rw [run_bind_of_ok (run_liftM _ run)]
  rw [run_bind_of_ok (run_get run)]
  simp only [hsetUp]
  exact ⟨_, rfl, hkeeps.trans (Run.keeps_log honConsole _)⟩

theorem run_configure_of_error {failure : Failure}
    (hsettings : request.settings run.host = .error failure) :
    (configure request).run.run run = (.error failure, run) := by
  unfold Request.settings at hsettings
  unfold configure
  rw [run_bind_of_ok (run_get run)]
  rw [hsettings]
  exact run_bind_of_error (run_liftM _ run)

theorem run_announce (hrun : run.setup.OnConsole) (target : Path) (patterns : List String) :
    ∃ run', (announce request target patterns).run.run run = (.ok (), run') ∧
      run.Keeps (request.heading target patterns) run' := by
  unfold announce Request.heading
  cases hjson : request.json with
  | true => exact ⟨run, rfl, Run.Keeps.refl hrun⟩
  | false =>
    have hscanning := Run.keeps_status hrun s!"Scanning: {target.text}"
    cases patterns with
    | nil => exact ⟨_, rfl, hscanning⟩
    | cons pattern patterns =>
      exact ⟨_, rfl, hscanning.trans (Run.keeps_status hscanning.onConsole _)⟩

theorem run_scan (hrun : run.setup.OnConsole) (settings : Settings) (target : Path)
    (patterns : List String) :
    ∃ run', (scan session request settings target patterns).run.run run =
        ((Scan.directory run.host session settings target.text patterns).outcome.1, run') ∧
      run.Keeps (countLines request.json
        (Scan.directory run.host session settings target.text patterns).outcome.2.events) run' := by
  have hkeeps := Run.keeps_foldl_follow hrun request.json
    (Scan.directory run.host session settings target.text patterns).outcome.2.events
  refine ⟨_, ?_, hkeeps⟩
  unfold scan
  rw [run_bind_of_ok (run_get run)]
  exact run_liftM _ _

def gather (session : ParserSession) (request : Request) : Step Report := do
  let settings ← configure request
  let target := Path.absolute (← get).host.cwd request.directory
  let patterns := Settings.exclusions settings.excludePatterns (splitPatterns request.exclude)
  announce request target patterns
  scan session request settings target patterns

theorem perform_eq (session : ParserSession) (request : Request) :
    perform session request = (do
      let report ← gather session request
      printReport request report
      writeReport request report) := by
  unfold perform gather
  simp only [bind_assoc]

theorem run_gather (hrun : run.setup.OnConsole) {settings : Settings}
    (hsettings : request.settings run.host = .ok settings)
    (hlog : settings.logFile.filter (!·.isEmpty) = none) :
    ∃ run', (gather session request).run.run run =
        ((request.scan run.host session settings).outcome.1, run') ∧
      run.Keeps (request.progress run.host session) run' := by
  obtain ⟨configured, hconfigure, hkeeps⟩ := run_configure hrun hsettings hlog
  unfold gather Request.progress
  rw [hsettings]
  rw [run_bind_of_ok hconfigure]
  rw [run_bind_of_ok (run_get configured)]
  obtain ⟨announced, hannounce, hkeeps'⟩ := @run_announce request configured hkeeps.onConsole
    (Path.absolute configured.host.cwd request.directory)
    (Settings.exclusions settings.excludePatterns (splitPatterns request.exclude))
  rw [run_bind_of_ok hannounce]
  obtain ⟨scanned, hscan, hkeeps''⟩ := @run_scan session request announced hkeeps'.onConsole settings
    (Path.absolute configured.host.cwd request.directory)
    (Settings.exclusions settings.excludePatterns (splitPatterns request.exclude))
  have hhost : announced.host = run.host := hkeeps'.host.trans hkeeps.host
  rw [hhost] at hscan hkeeps''
  rw [hkeeps.host] at hscan hkeeps' hkeeps''
  refine ⟨scanned, ?_, hkeeps.trans (hkeeps'.trans hkeeps'')⟩
  rw [hkeeps.host]
  exact hscan

theorem run_gather_of_error {failure : Failure}
    (hsettings : request.settings run.host = .error failure) :
    (gather session request).run.run run = (.error failure, run) :=
  run_bind_of_error (run_configure_of_error hsettings)

theorem isFinal_describeFault? {platform : Platform} {value : Value} {fault : Fault}
    (h : value.describeFault? platform = some fault) : Failure.isFinal (.fault fault) = false := by
  unfold Value.describeFault? at h
  split at h
  . cases h
    rfl
  . split at h
    . cases h
      rfl
    . cases h

theorem isFinal_of_settings {host : Host} {failure : Failure}
    (h : request.settings host = .error failure) : failure.isFinal = false := by
  have hoverrides : (Table.keys [("verbose", Value.boolean request.verbose),
      ("quiet", .boolean request.quiet)]).Nodup := by
    simp [Table.keys]
  cases failure with
  | problem problem =>
    have hproblem := Settings.isConfiguration_of_load hoverrides h
    cases problem with
    | foreign => cases hproblem
    | _ => rfl
  | fault fault =>
    rcases (Settings.load_eq_fault_iff hoverrides).mp h with
      hfault | ⟨project, -, ⟨path, -, hfault⟩ | ⟨explicit, -, ⟨rfl, -⟩ | hfault⟩⟩
    . cases hfault <;> rfl
    . cases hfault <;> rfl
    . rfl
    . obtain ⟨key, value, source, -, hvalue, -⟩ := hfault
      exact isFinal_describeFault? hvalue

theorem run_printReport {report : Report} :
    (printReport request report).run.run run =
      match request.format.write report with
      | .ok text => (.ok (), run.print (text ++ "\n"))
      | .error error => (.error (.fault (.ratio error)), run) := by
  unfold printReport Request.format
  simp only
  cases Format.write (if request.json then .json .compact else .text) report <;> rfl

def finish : Except Failure Unit × Run → Run × Int
  | (.ok (), run) => (run, 0)
  | (.error failure, run) => explain failure run

def Written (request : Request) (json : String) (before after : Host) (code : Int) : Prop :=
  match request.output with
  | none => code = 0 ∧ after = before
  | some path =>
    if Path.hasNul path.text then code = 1 ∧ after = before
    else
      match before.writeBytes path.text fun _ => (json ++ "\n").toUTF8.toList with
      | .error _ => code = 1 ∧ after = before
      | .ok written => code = 0 ∧ after = written

/--
What is there after the report was to be written to a file as well. `code` is what the caller is told.
-/
def Delivered (request : Request) (json : String) (before after : Host) (code : Int) : Prop :=
  match request.output with
  | none => code = 0 ∧ after = before
  | some path =>
    if Path.hasNul path.text then code = 1 ∧ after = before
    else
      match before.writeBytes path.text fun _ => (json ++ "\n").toUTF8.toList with
      | .error _ => code = 1
      | .ok _ => code = 0 ∧ after.resolve path.text = .ok (.file (json ++ "\n").toUTF8.toList)

/--
The file that is asked for is no device. What the path leads to, if anything, is a file or a directory.
-/
def Request.AvoidsDevices (request : Request) (host : Host) : Prop :=
  ∀ path node, request.output = some path → host.resolve path.text = .ok node →
    node.isFile = true ∨ node.isDirectory = true

/--
The user is told nothing, or why the run failed: because of what the request comes to, or because its report cannot be
printed or written.
-/
def Explained (console : Console) (result : Except Failure Report) (before after : String) (code : Int) :
    Prop :=
  code = 0 ∧ after = before ∨
    ∃ failure, (result = .error failure ∨ failure.isFinal = false) ∧ code = codeOf failure ∧
      after = before ++ told console failure

theorem codeOf_of_not_isFinal {failure : Failure} (h : failure.isFinal = false) : codeOf failure = 1 := by
  rcases codeOf_cases failure with ⟨code, hends, -⟩ | ⟨hends, -⟩ | ⟨-, hcode⟩
  . exact absurd hends (Failure.not_ends_error h)
  . exact absurd hends (Failure.not_ends_error h)
  . exact hcode

theorem Explained.eq_of_ok {console : Console} {report : Report} {before after : String}
    (h : Explained console (.ok report) before after 0) : after = before := by
  rcases h with ⟨-, h⟩ | ⟨failure, hresult | hfinal, hcode, -⟩
  . exact h
  . cases hresult
  . rw [codeOf_of_not_isFinal hfinal] at hcode
    cases hcode

theorem finish_of_error (hrun : run.setup.OnConsole) (failure : Failure) :
    let final := finish (.error failure, run)
    final.1.host = run.host ∧ final.1.stdout = run.stdout ∧ final.2 = codeOf failure ∧
      final.1.stderr = run.stderr ++ told run.console failure := by
  obtain ⟨shown, hexplain⟩ := explain_eq hrun failure
  simp only [finish]
  rw [hexplain]
  exact ⟨rfl, rfl, rfl, rfl⟩

theorem run_writeReport {report : Report} {json : String}
    (hjson : report.toJsonText (.indented "  ") = .ok json) :
    (writeReport request report).run.run run =
      match request.output with
      | none => (.ok (), run)
      | some path =>
        if Path.hasNul path.text then (.error (.fault .nulInPath), run)
        else
          match run.host.writeBytes path.text fun _ => (json ++ "\n").toUTF8.toList with
          | .ok host => (.ok (), { run with host })
          | .error error =>
            let reason := s!"Cannot write report: {error.message path.text}"
            (.error (.problem (.fileAccess path reason)), run) := by
  unfold writeReport
  cases request.output with
  | none => rfl
  | some path =>
    simp only [hjson]
    cases Path.hasNul path.text with
    | true => rfl
    | false =>
      simp only [Bool.false_eq_true, ↓reduceIte]
      rw [run_bind_of_ok (run_get run)]
      cases run.host.writeBytes path.text fun _ => (json ++ "\n").toUTF8.toList <;> rfl

theorem Written.delivered {json : String} {before after : Host} {code : Int}
    (h : Written request json before after code) (hhost : before.WellFormed)
    (havoids : request.AvoidsDevices before) : Delivered request json before after code := by
  unfold Written at h
  unfold Delivered
  unfold Request.AvoidsDevices at havoids
  cases houtput : request.output with
  | none =>
    simp only [houtput] at h
    exact h
  | some path =>
    simp only [houtput] at h havoids ⊢
    cases hnul : Path.hasNul path.text with
    | true =>
      simp only [hnul, ↓reduceIte] at h ⊢
      exact h
    | false =>
      simp only [hnul, Bool.false_eq_true, ↓reduceIte] at h ⊢
      cases hwrite : before.writeBytes path.text fun _ => (json ++ "\n").toUTF8.toList with
      | error error =>
        simp only [hwrite] at h ⊢
        exact h.1
      | ok written =>
        simp only [hwrite] at h ⊢
        obtain ⟨hcode, rfl⟩ := h
        refine ⟨hcode, ?_⟩
        rcases Host.resolve_writeBytes hhost hwrite with hresolve | ⟨-, node, hnode, hfile, hdirectory⟩
        . exact hresolve
        . have hkind := havoids path node rfl hnode
          simp [hfile, hdirectory] at hkind

theorem finish_writeReport (hrun : run.setup.OnConsole) (result : Except Failure Report)
    {report : Report} {json : String}
    (hjson : report.toJsonText (.indented "  ") = .ok json) :
    let final := finish ((writeReport request report).run.run run)
    final.1.stdout = run.stdout ∧ Written request json run.host final.1.host final.2 ∧
      Explained run.console result run.stderr final.1.stderr final.2 ∧ (final.2 = 0 ∨ final.2 = 1) := by
  have hfailed : ∀ failure : Failure, failure.isFinal = false →
      let final := finish (.error failure, run)
      final.1.stdout = run.stdout ∧ (final.2 = 1 ∧ final.1.host = run.host) ∧
        Explained run.console result run.stderr final.1.stderr final.2 ∧ (final.2 = 0 ∨ final.2 = 1) := by
    intro failure hfinal
    obtain ⟨hhost, hstdout, hcode, hstderr⟩ := finish_of_error hrun failure
    have hone := hcode.trans (codeOf_of_not_isFinal hfinal)
    exact ⟨hstdout, ⟨hone, hhost⟩, .inr ⟨failure, .inr hfinal, hcode, hstderr⟩, .inr hone⟩
  rw [run_writeReport hjson]
  unfold Written
  cases request.output with
  | none => exact ⟨rfl, ⟨rfl, rfl⟩, .inl ⟨rfl, rfl⟩, .inl rfl⟩
  | some path =>
    cases hnul : Path.hasNul path.text with
    | true =>
      simp only [hnul, ↓reduceIte]
      exact hfailed (.fault .nulInPath) rfl
    | false =>
      simp only [hnul, Bool.false_eq_true, ↓reduceIte]
      cases hwrite : run.host.writeBytes path.text fun _ => (json ++ "\n").toUTF8.toList with
      | error error => exact hfailed (.problem (.fileAccess path _)) rfl
      | ok written => exact ⟨rfl, ⟨rfl, rfl⟩, .inl ⟨rfl, rfl⟩, .inl rfl⟩

/--
The request is for a report, and this is the text of the report that is printed.
-/
structure Prints (host : Host) (session : ParserSession) (request : Request) (report : Report)
    (text : String) : Prop where
  version : request.version = false
  flags : (request.verbose && request.quiet) = false
  result : request.result host session = .ok report
  text : request.format.write report = .ok text

/--
The parser ends one of its calls during the scan with a fault that satisfies `p`.
-/
structure ParserEnds (host : Host) (session : ParserSession) (request : Request)
    (p : ParserFault → Prop) : Prop where
  version : request.version = false
  flags : (request.verbose && request.quiet) = false
  scan : ∃ settings, request.settings host = .ok settings ∧
    session.FailsIn p [] (request.scan host session settings).outcome.2.calls

structure Leaves (session : ParserSession) (request : Request) (run : Run) (final : Run × Int) :
    Prop where
  left : ∀ code, ParserEnds run.host session request (ParserFault.Returns code) → final.2 = code
  code : (∀ code, ¬ ParserEnds run.host session request (ParserFault.Returns code)) →
    (final.2 = 0 ∨ final.2 = 1 ∨ final.2 = 130) ∧
      (final.2 = 130 ↔ ParserEnds run.host session request ParserFault.IsInterruption)
  caused : ∀ failure, request.result run.host session = .error failure → final.2 = codeOf failure
  failed : (¬ ∃ report text, Prints run.host session request report text) →
    (final.2 ≠ 0 ∨ ∃ code, ParserEnds run.host session request (ParserFault.Returns code)) ∧
      final.1.stdout = run.stdout ∧ final.1.host = run.host
  printed : ∀ report text, Prints run.host session request report text →
    final.1.stdout = run.stdout ++ (text ++ "\n") ∧
      ∃ json, report.toJsonText (.indented "  ") = .ok json ∧
        Written request json run.host final.1.host final.2
  told : Explained run.console (request.result run.host session)
    (run.stderr ++ statusText run.console (request.progress run.host session)) final.1.stderr final.2

theorem parserEnds_iff {host : Host} {settings : Settings}
    (hsettings : request.settings host = .ok settings) {p : ParserFault → Prop}
    (hp : ∀ fault, p fault → fault.isFinal = true) (hversion : request.version = false)
    (hflags : (request.verbose && request.quiet) = false) :
    ParserEnds host session request p ↔ Failure.Ends p (request.result host session) := by
  have hfinal : (fun fault => fault.isFinal = true ∧ p fault) = p := by
    funext fault
    exact propext ⟨fun h => h.2, fun h => ⟨hp fault h, h⟩⟩
  rw [Request.result_of_settings hsettings]
  unfold Request.scan
  rw [Scan.ends_directory_iff]
  rw [hfinal]
  constructor
  . rintro ⟨-, -, settings', hsettings', hfails⟩
    rw [hsettings] at hsettings'
    cases hsettings'
    exact hfails
  . intro hfails
    exact ⟨hversion, hflags, settings, hsettings, hfails⟩

theorem Prints.unique {host : Host} {report report' : Report} {text text' : String}
    (h : Prints host session request report text) (h' : Prints host session request report' text') :
    report = report' ∧ text = text' := by
  have hresult := h.result
  rw [h'.result] at hresult
  cases hresult
  have htext := h.text
  rw [h'.text] at htext
  cases htext
  exact ⟨rfl, rfl⟩

theorem leaves_of_failure {run' : Run} {failure : Failure}
    (hkeeps : run.Keeps (request.progress run.host session) run')
    (hprints : ¬ ∃ report text, Prints run.host session request report text)
    (hresult : request.result run.host session = .error failure ∨
      (∃ report, request.result run.host session = .ok report) ∧ failure.isFinal = false)
    (hends : ∀ p : ParserFault → Prop, (∀ fault, p fault → fault.isFinal = true) →
      (ParserEnds run.host session request p ↔
        Failure.Ends p (.error failure : Except Failure Unit))) :
    Leaves session request run (finish (.error failure, run')) := by
  obtain ⟨hhost, hstdout, hcode, hstderr⟩ := finish_of_error hkeeps.onConsole failure
  have hleft := fun code => hends _ (@ParserFault.isFinal_of_returns code)
  have hstopped := hends _ ParserFault.isFinal_of_isInterruption
  have hcases := codeOf_cases failure
  rw [← hcode] at hcases
  simp only [← hleft, ← hstopped] at hcases
  refine ⟨?_, ?_, ?_, ?_, ?_, ?_⟩
  . intro code h
    exact hcode.trans (codeOf_of_returns ((hleft code).mp h))
  . intro hnone
    rcases hcases with ⟨code, h, -⟩ | ⟨h, hcode⟩ | ⟨hfinal, hcode⟩
    . exact absurd h (hnone code)
    . exact ⟨.inr (.inr hcode), iff_of_true hcode h⟩
    . refine ⟨.inr (.inl hcode), iff_of_false (by omega) ?_⟩
      rw [hstopped]
      exact Failure.not_ends_error hfinal
  . intro other hother
    rw [hother] at hresult
    rcases hresult with h | ⟨⟨report, h⟩, -⟩
    . cases h
      exact hcode
    . cases h
  . intro _
    refine ⟨?_, hstdout.trans hkeeps.stdout, hhost.trans hkeeps.host⟩
    rcases hcases with ⟨code, h, -⟩ | ⟨-, hcode⟩ | ⟨-, hcode⟩
    . exact .inr ⟨code, h⟩
    . exact .inl (by omega)
    . exact .inl (by omega)
  . intro report text h
    exact absurd ⟨report, text, h⟩ hprints
  . rw [hkeeps.stderr] at hstderr
    rw [hkeeps.console] at hstderr
    exact .inr ⟨failure, hresult.imp_right And.right, hcode, hstderr⟩

theorem leaves_of_report {run' : Run} {report : Report} {text : String}
    (hkeeps : run.Keeps (request.progress run.host session) run')
    (hprints : Prints run.host session request report text)
    (hends : ∀ p : ParserFault → Prop, (∀ fault, p fault → fault.isFinal = true) →
      ¬ ParserEnds run.host session request p) :
    Leaves session request run
      (finish ((writeReport request report).run.run (run'.print (text ++ "\n")))) := by
  obtain ⟨json, hjson⟩ := exists_toJsonText hprints.text (.indented "  ")
  have honConsole : (run'.print (text ++ "\n")).setup.OnConsole := hkeeps.onConsole
  obtain ⟨hstdout, hwritten, hexplained, hcode⟩ :=
    @finish_writeReport request _ honConsole (request.result run.host session) _ _ hjson
  have hleft := fun code => hends _ (@ParserFault.isFinal_of_returns code)
  refine ⟨?_, ?_, ?_, ?_, ?_, ?_⟩
  . intro code h
    exact absurd h (hleft code)
  . intro _
    exact ⟨by omega, iff_of_false (by omega) (hends _ ParserFault.isFinal_of_isInterruption)⟩
  . intro failure hfailure
    rw [hprints.result] at hfailure
    cases hfailure
  . intro h
    exact absurd ⟨report, text, hprints⟩ h
  . intro report' text' hprints'
    obtain ⟨rfl, rfl⟩ := hprints.unique hprints'
    refine ⟨?_, json, hjson, ?_⟩
    . rw [hstdout]
      rw [← hkeeps.stdout]
      rfl
    . rw [← hkeeps.host]
      exact hwritten
  . change Explained run'.console _ run'.stderr _ _ at hexplained
    rw [hkeeps.stderr] at hexplained
    rw [hkeeps.console] at hexplained
    exact hexplained

theorem leaves_perform (hversion : request.version = false)
    (hflags : (request.verbose && request.quiet) = false) (hrun : run.setup.OnConsole)
    (hlog : ∀ settings, request.settings run.host = .ok settings →
      settings.logFile.filter (!·.isEmpty) = none) :
    Leaves session request run (finish ((perform session request).run.run run)) := by
  -- The settings, the scan and the text of the report can each end the run, all of them before anything is printed.
  rw [perform_eq]
  cases hsettings : request.settings run.host with
  | error failure =>
    rw [run_bind_of_error (run_gather_of_error hsettings)]
    have hresult := Request.result_of_error hsettings session
    have hkeeps : run.Keeps (request.progress run.host session) run := by
      unfold Request.progress
      rw [hsettings]
      exact Run.Keeps.refl hrun
    apply leaves_of_failure hkeeps
    . rintro ⟨report, text, h⟩
      exact absurd h.result (by simp [hresult])
    . exact .inl hresult
    . intro p _
      apply iff_of_false _ (Failure.not_ends_error (isFinal_of_settings hsettings))
      intro h
      obtain ⟨settings, hok, -⟩ := h.scan
      rw [hsettings] at hok
      cases hok
  | ok settings =>
    obtain ⟨run', hgather, hkeeps⟩ := @run_gather session _ _ hrun _ hsettings (hlog settings hsettings)
    rw [← Request.result_of_settings hsettings] at hgather
    have hends := fun p hp => @parserEnds_iff session _ _ _ hsettings p hp hversion hflags
    cases hresult : request.result run.host session with
    | error failure =>
      rw [hresult] at hgather hends
      rw [run_bind_of_error hgather]
      apply leaves_of_failure hkeeps
      . rintro ⟨report, text, h⟩
        exact absurd h.result (by simp [hresult])
      . exact .inl hresult
      . intro p hp
        exact (hends p hp).trans Failure.ends_error_iff
    | ok report =>
      rw [hresult] at hgather hends
      rw [run_bind_of_ok hgather]
      have hnone : ∀ p : ParserFault → Prop, (∀ fault, p fault → fault.isFinal = true) →
          ¬ ParserEnds run.host session request p := by
        intro p hp
        rw [hends p hp]
        exact Failure.not_ends_ok report
      have hprint := @run_printReport request run' report
      cases htext : request.format.write report with
      | error error =>
        rw [htext] at hprint
        rw [run_bind_of_error hprint]
        apply leaves_of_failure hkeeps
        . rintro ⟨report', text, h⟩
          have hok := h.result
          rw [hresult] at hok
          cases hok
          exact absurd h.text (by simp [htext])
        . exact .inr ⟨⟨report, hresult⟩, rfl⟩
        . intro p hp
          exact iff_of_false (hnone p hp) (Failure.not_ends_error rfl)
      | ok text =>
        rw [htext] at hprint
        rw [run_bind_of_ok hprint]
        exact leaves_of_report hkeeps ⟨hversion, hflags, hresult, htext⟩ hnone

theorem execute_of_version (hhelp : request.help = false) (hversion : request.version = true) :
    execute session request run = (run.print s!"paradigm-meter {version}\n", 0) := by
  simp [execute, hhelp, hversion]

theorem execute_of_conflict (hhelp : request.help = false) (hversion : request.version = false)
    (hflags : (request.verbose && request.quiet) = true) :
    execute session request run =
      (run.complain "Error: --verbose and --quiet are mutually exclusive", 1) := by
  simp only [execute, hhelp, hversion, hflags, Bool.false_eq_true, ↓reduceIte]

theorem execute_of_request (hhelp : request.help = false) (hversion : request.version = false)
    (hflags : (request.verbose && request.quiet) = false) :
    execute session request run = finish ((perform session request).run.run run) := by
  simp only [execute, hhelp, hversion, hflags, Bool.false_eq_true, ↓reduceIte]
  cases (perform session request).run.run run with
  | mk result run => cases result <;> rfl

def patternBytes : List UInt8 := "exclude_patterns=[\"x\"]".toUTF8.toList

def reportHost : Host where
  tree := .directory [
    ("p", .directory [("paradigm-meter.toml", .file patternBytes)]),
    ("q", .directory [("a.ts", .file [97]), ("x.ts", .file [97])]),
    ("d", .special)]
  cwd := ["p"]
  denied := []

theorem wellFormed_reportHost : reportHost.WellFormed := by
  refine ⟨?_, [("paradigm-meter.toml", .file patternBytes)], rfl⟩
  simp only [reportHost, Node.WellFormed, Node.WellFormedEntries, and_true, List.map_cons,
    List.map_nil]
  decide

theorem projectLayer_of_file {host : Host} (hcwd : host.cwd = ["p"]) (hdenied : host.denied = [])
    (hplatform : host.platform.isTooDeep = fun _ => false) (hbars : host.bars = fun _ => false)
    {bytes : List UInt8} {values : Table Value}
    (hfile : host.tree.descend? ["p", "paradigm-meter.toml"] = some (.file bytes))
    (hutf8 : Encoding.utf8Fault? 0 bytes = none)
    (hparse : Toml.parse (Encoding.toChars (Encoding.decodeUtf8 bytes)) = .ok values) :
    Settings.projectLayer host = .ok [{ source := "/p/paradigm-meter.toml", values }] := by
  have hpath : Settings.projectPath host =
      { anchor := .root, names := ["p", "paradigm-meter.toml"] } := by
    simp [Settings.projectPath, hcwd, Settings.projectFileName]
  have hresolve : host.resolve (Settings.projectPath host).text = .ok (.file bytes) := by
    rw [hpath]
    exact Host.resolve_text_of_descend? (by simp) (by decide) hfile rfl ⟨by decide, by rw [hbars]⟩
  have hnul : Path.hasNul (Settings.projectPath host).text = false := by
    rw [Path.hasNul_text_eq_false_iff]
    rw [hpath]
    decide
  have hsource : (Settings.projectPath host).text = "/p/paradigm-meter.toml" := by
    rw [hpath]
    decide
  rw [← hsource]
  exact Settings.projectLayer_of_resolve (by simp [Host.isDenied, hdenied]) hnul hresolve hutf8
    (by rw [hplatform]) hparse

theorem projectLayer_reportHost :
    Settings.projectLayer reportHost =
      .ok [{ source := "/p/paradigm-meter.toml", values := [("exclude_patterns", .list [.text "x"])] }] :=
  projectLayer_of_file rfl rfl rfl rfl rfl (by cbv) (by cbv)

def reportRequest (output : String) : Request where
  directory := "/q"
  output := some { anchor := .root, names := [output] }

theorem settings_reportHost (output : String) :
    (reportRequest output).settings reportHost = .ok { excludePatterns := ["x"] } := by
  unfold Request.settings Settings.load
  rw [projectLayer_reportHost]
  cbv

theorem absolute_reportHost :
    Path.absolute reportHost.cwd "/q" = { anchor := .root, names := ["q"] } := by
  decide

theorem outcome_reportHost {patterns : List String}
    (hsources : Scan.sources reportHost { excludePatterns := ["x"] } "/q" patterns =
      [{ anchor := .root, names := ["q", "a.ts"] }]) :
    (Scan.directory reportHost Scan.oneClassParser { excludePatterns := ["x"] } "/q" patterns).outcome.1 =
      .ok { directory := "/q", files := 1, totals := { classes := 1 } } := by
  have htext : Path.text { anchor := .root, names := ["q"] } = "/q" := by
    decide
  have hroot : reportHost.isDirectory (Path.absolute reportHost.cwd "/q") = .ok true := by
    rw [absolute_reportHost]
    cbv
  have hbytes : reportHost.readBytes { anchor := .root, names := ["q", "a.ts"] } = .ok [97] := by
    cbv
  have htally : (reportHost.fate Scan.oneClassParser { anchor := .root, names := ["q", "a.ts"] }).tally =
      { classes := 1 } := by
    simp only [Host.fate, hbytes]
    cbv
  have hparser : Scan.oneClassParser.Answers := fun _ _ => .inl ⟨_, rfl⟩
  obtain ⟨trace, hreports⟩ := @Scan.reports_of_hasDirectory reportHost wellFormed_reportHost _
    { excludePatterns := ["x"] } (by cbv) (by cbv) hparser _ (Host.isDirectory_eq_ok_true_iff.mp hroot)
    patterns {}
  rw [hreports]
  simp only [Scan.reportOf, hsources, absolute_reportHost, htext, List.map_cons, List.map_nil, htally]
  rfl

theorem scan_reportHost (output : String) :
    ((reportRequest output).scan reportHost Scan.oneClassParser { excludePatterns := ["x"] }).outcome.1 =
      .ok { directory := "/q", files := 1, totals := { classes := 1 } } := by
  have htext : Path.text { anchor := .root, names := ["q"] } = "/q" := by
    decide
  have hpatterns : Settings.exclusions ["x"] (splitPatterns none) = ["x"] := by
    cbv
  unfold Request.scan
  simp only [reportRequest, absolute_reportHost, htext, hpatterns]
  apply outcome_reportHost
  unfold Scan.sources
  rw [absolute_reportHost]
  cbv

theorem prints_reportHost (output : String) :
    ∃ text, Report.toText { directory := "/q", files := 1, totals := { classes := 1 } } = .ok text ∧
      Prints reportHost Scan.oneClassParser (reportRequest output)
        { directory := "/q", files := 1, totals := { classes := 1 } } text := by
  obtain ⟨text, htext⟩ : ∃ text,
      Report.toText { directory := "/q", files := 1, totals := { classes := 1 } } = .ok text :=
    ⟨_, rfl⟩
  refine ⟨text, htext, rfl, rfl, ?_, htext⟩
  rw [Request.result_of_settings (settings_reportHost output)]
  exact scan_reportHost output

theorem logFile_reportHost (output : String) :
    ∀ settings, (reportRequest output).settings reportHost = .ok settings →
      settings.logFile.filter (!·.isEmpty) = none := by
  intro settings hsettings
  rw [settings_reportHost] at hsettings
  cases hsettings
  rfl

theorem find_reportHost : reportHost.find "/o" = .ok (.missing [] "o") := by
  cbv

theorem avoidsDevices_reportHost : (reportRequest "o").AvoidsDevices reportHost := by
  intro path node hpath hnode
  cases hpath
  have htext : Path.text { anchor := .root, names := ["o"] } = "/o" := by decide
  rw [htext] at hnode
  unfold Host.resolve Host.locate at hnode
  rw [find_reportHost] at hnode
  cases hnode

theorem delivered_reportHost {json : String} {after : Host} {code : Int}
    (h : Delivered (reportRequest "o") json reportHost after code) :
    code = 0 ∧ after.resolve "/o" = .ok (.file (json ++ "\n").toUTF8.toList) := by
  have hpath : Path.text { anchor := .root, names := ["o"] } = "/o" := by decide
  have hnul : Path.hasNul "/o" = false := by cbv
  unfold Delivered reportRequest at h
  simp only [hpath, hnul, Bool.false_eq_true, ↓reduceIte, Host.writeBytes, find_reportHost] at h
  exact h

end CommandLine

end ParadigmScan
