import ParadigmScan.Proofs.Encoding.LineEnds
import ParadigmScan.Proofs.FileTree.Checks
import ParadigmScan.Proofs.Scan.Completion
import ParadigmScan.Proofs.Tally.Sum

/-!
This module contains what becomes of every file of a scan: it cannot be read, or it is given to the parser, which
makes a tree of it or not. The report, the calls of the parser and the log follow from that.
-/

namespace ParadigmScan

namespace Log

theorem loggerName_eq {name : String} (hname : name ≠ "")
    (h : ¬ packageLogger.toList <+: name.toList) :
    loggerName name = packageLogger ++ "." ++ name := by
  have hne : name ≠ packageLogger := by
    rintro rfl
    exact h List.prefix_rfl
  have hstarts : name.startsWith (packageLogger ++ ".") = false := by
    rw [Bool.eq_false_iff]
    intro hstarts
    rw [String.startsWith_string_iff] at hstarts
    rw [String.toList_append] at hstarts
    exact h ((List.prefix_append _ _).trans hstarts)
  unfold loggerName
  simp [hname, hne, hstarts]

end Log

namespace Event

def isAnnouncement : Event → Bool
  | logged record => record.logger == Log.loggerName "scanning.treesitter_parser"
  | _ => false

def call? : Event → Option (Dialect × List UInt8)
  | parsed dialect bytes => some (dialect, bytes)
  | _ => none

theorem isAnnouncement_debug {logger : String} (hname : logger ≠ "")
    (hpackage : ¬ Log.packageLogger.toList <+: logger.toList)
    (hne : logger ≠ "scanning.treesitter_parser") (message : String) :
    (logged (Log.debug logger message)).isAnnouncement = false := by
  unfold isAnnouncement Log.debug
  rw [Log.loggerName_eq hname hpackage]
  rw [Log.loggerName_eq (by decide) (by decide)]
  simpa using hne

theorem call?_eq_none {event : Event} (h : event.isAnnouncement = true) : event.call? = none := by
  cases event with
  | logged record => rfl
  | _ => cases h

end Event

namespace Trace

/--
What happened between two moments, apart from the announcements of the parser.
-/
def Adds (start trace : Trace) (events : List Event) : Prop :=
  ∃ added, trace.events = start.events ++ added ∧ added.filter (!·.isAnnouncement) = events

variable {start trace trace' : Trace} {events events' : List Event}

theorem Adds.refl (start : Trace) : start.Adds start [] :=
  ⟨[], by simp, rfl⟩

theorem Adds.trans (h : start.Adds trace events) (h' : trace.Adds trace' events') :
    start.Adds trace' (events ++ events') := by
  obtain ⟨added, hadded, hevents⟩ := h
  obtain ⟨added', hadded', hevents'⟩ := h'
  refine ⟨added ++ added', ?_, ?_⟩
  . rw [hadded']
    rw [hadded]
    rw [List.append_assoc]
  . rw [List.filter_append]
    rw [hevents]
    rw [hevents']

theorem adds_append (start : Trace) {event : Event} (h : event.isAnnouncement = false) :
    start.Adds { start with events := start.events ++ [event] } [event] :=
  ⟨[event], rfl, by simp [h]⟩

theorem adds_announcement {event : Event} (h : event.isAnnouncement = true)
    (hevents : trace.events = start.events ++ [event]) : start.Adds trace [] :=
  ⟨[event], hevents, by simp [h]⟩

theorem calls_eq (trace : Trace) : trace.calls = trace.events.filterMap Event.call? := by
  unfold calls
  congr 1

theorem Adds.calls (h : start.Adds trace events) :
    trace.calls = start.calls ++ events.filterMap Event.call? := by
  obtain ⟨added, hadded, rfl⟩ := h
  rw [calls_eq]
  rw [calls_eq]
  rw [hadded]
  rw [List.filterMap_append]
  rw [List.filterMap_filter]
  congr 1
  apply List.filterMap_congr
  intro event _
  cases hannouncement : event.isAnnouncement with
  | true => simp [Event.call?_eq_none hannouncement]
  | false => simp

end Trace

namespace Encoding

theorem surrogateRun?_eq_none {text : List CodePoint} (h : ∀ c ∈ text, CodePoint.IsScalar c) :
    surrogateRun? text = none := by
  have hall : text.takeWhile (!CodePoint.isSurrogate ·) = text := by
    rw [List.takeWhile_eq_self_iff]
    intro c hc
    simp [CodePoint.isSurrogate_eq_false (h c hc)]
  unfold surrogateRun?
  rw [hall]
  simp

def repair (bytes : List UInt8) : List UInt8 := encodeUtf8 (unifyLines (decodeUtf8 bytes))

theorem surrogateRun?_unifyLines_decodeUtf8 (bytes : List UInt8) :
    surrogateRun? (unifyLines (decodeUtf8 bytes)) = none :=
  surrogateRun?_eq_none (isScalar_of_mem_unifyLines (isScalar_of_mem_decodeUtf8 bytes))

end Encoding

namespace Path

theorem endsWith_iff {text part : String} :
    text.endsWith part = true ↔ part.toList <:+ text.toList := by
  rw [String.endsWith_eq_endsWith_toSlice]
  rw [String.Slice.endsWith_string_iff]
  rw [String.copy_toSlice]

theorem suffix_append_iff {part before last : List Char} (hpart : '/' ∉ part)
    (hbefore : before = [] ∨ ∃ init, before = init ++ ['/']) :
    part <:+ before ++ last ↔ part <:+ last := by
  constructor
  . intro h
    rcases List.suffix_or_suffix_of_suffix h (List.suffix_append before last) with h' | ⟨front, rfl⟩
    . exact h'
    . rw [List.suffix_append_inj_of_length_eq rfl] at h
      rcases hbefore with rfl | ⟨init, rfl⟩
      . simp [List.suffix_nil.mp h.1]
      . -- a longer part would hold the slash that the text before ends with
        rcases List.eq_nil_or_concat front with rfl | ⟨front, c, rfl⟩
        . simp
        . rw [List.concat_eq_append] at h hpart
          have hlength : [c].length = ['/'].length := rfl
          rw [List.suffix_append_inj_of_length_eq hlength] at h
          have hslash : c = '/' := by simpa using h.1.2
          simp [hslash] at hpart
  . intro h
    exact h.trans (List.suffix_append before last)

theorem text_eq_append (anchor : Anchor) (names : List String) (last : String) :
    ∃ before : List Char, (before = [] ∨ ∃ init, before = init ++ ['/']) ∧
      (text { anchor, names := names ++ [last] }).toList = before ++ last.toList := by
  rw [text_of_names_ne_nil (by simp)]
  cases names with
  | nil =>
    refine ⟨anchor.text.toList, ?_, by simp⟩
    cases anchor with
    | here => exact .inl rfl
    | root => exact .inr ⟨[], rfl⟩
    | doubleRoot => exact .inr ⟨['/'], rfl⟩
  | cons name names =>
    simp only
    rw [String.intercalate_append_of_ne_nil (by simp) (by simp)]
    rw [String.intercalate_singleton]
    rw [← String.append_assoc]
    rw [← String.append_assoc]
    rw [String.toList_append]
    refine ⟨_, .inr ?_, rfl⟩
    rw [String.toList_append]
    exact ⟨_, rfl⟩

def dialect (path : Path) : Dialect :=
  if (path.names.getLast?.getD "").endsWith ".tsx" then .tsx else .typescript

theorem ofPath_text (path : Path) : Dialect.ofPath path.text = path.dialect := by
  obtain ⟨anchor, names⟩ := path
  rcases List.eq_nil_or_concat names with rfl | ⟨names, last, rfl⟩
  . cases anchor <;> cbv
  . rw [List.concat_eq_append]
    obtain ⟨before, hbefore, htext⟩ := text_eq_append anchor names last
    have hiff : (text { anchor, names := names ++ [last] }).endsWith ".tsx" = true ↔
        last.endsWith ".tsx" = true := by
      rw [endsWith_iff]
      rw [endsWith_iff]
      rw [htext]
      exact suffix_append_iff (by decide) hbefore
    unfold Dialect.ofPath dialect
    simp [hiff]

end Path

inductive Fate where
  | unreadable (path : Path) (error : FileError)
  | counted (path : Path) (dialect : Dialect) (bytes : List UInt8) (tree : Option Tree)
  | unparsable (path : Path) (dialect : Dialect) (bytes : List UInt8) (message : String)

namespace Fate

def path : Fate → Path
  | unreadable path _ | counted path .. | unparsable path .. => path

def tally : Fate → Tally
  | counted _ _ _ tree => SourceFile.tallyOf tree
  | _ => 0

def call? : Fate → Option (Dialect × List UInt8)
  | unreadable .. => none
  | counted _ dialect bytes _ | unparsable _ dialect bytes _ => some (dialect, bytes)

def problem? : Fate → Option Problem
  | unreadable path error =>
    some (.fileAccess path s!"Cannot read file: {error.message path.text}")
  | counted .. => none
  | unparsable path dialect _ message => some (.parsing path dialect.name message)

def events (fate : Fate) : List Event :=
  fate.call?.toList.map (fun (dialect, bytes) => .parsed dialect bytes) ++
    fate.problem?.toList.map fun problem =>
      .logged (Log.debug "analysis.counter" s!"Skipping {fate.path.text}: {problem.text}")

theorem filterMap_call?_events (fate : Fate) :
    fate.events.filterMap Event.call? = fate.call?.toList := by
  cases fate <;> rfl

end Fate

namespace Parser

def Answers (parser : Parser) : Prop :=
  ∀ dialect bytes, (∃ tree, parser.parse dialect bytes = .ok tree) ∨
    ∃ message, parser.parse dialect bytes = .error (.badInput message)

end Parser

/--
What becomes of a file that is read as UTF-8. The name decides the dialect.
-/
def Host.fate (host : Host) (parser : Parser) (path : Path) : Fate :=
  match host.readBytes path with
  | .error error => .unreadable path error
  | .ok bytes =>
    match parser.parse path.dialect (Encoding.repair bytes) with
    | .ok tree => .counted path path.dialect (Encoding.repair bytes) tree
    | .error fault =>
      .unparsable path path.dialect (Encoding.repair bytes) (Fault.parser fault).message

def Host.fates (host : Host) (session : ParserSession) (calls : List (Dialect × List UInt8)) :
    List Path → List Fate
  | [] => []
  | path :: rest =>
    let fate := host.fate (session calls) path
    fate :: host.fates session (calls ++ fate.call?.toList) rest

namespace SourceFile

open Scan

variable {host : Host} {session : ParserSession} {encodingName : String} {path : Path}

theorem adds_prepared (parser : Parser) (dialect : Dialect) (start : Trace) :
    start.Adds (start.prepared parser dialect) [] := by
  unfold Trace.prepared
  split
  . refine Trace.adds_announcement ?_ rfl
    simp [Event.isAnnouncement, Parser.announcement, Log.debug]
  . exact Trace.Adds.refl start

theorem adds_call (parser : Parser) (dialect : Dialect) (bytes : List UInt8) (start : Trace) :
    ∃ trace, (parser.call dialect bytes).outcome start =
        (.ok (parser.parse dialect bytes), trace) ∧ start.Adds trace [.parsed dialect bytes] :=
  ⟨_, outcome_call dialect bytes start,
    (adds_prepared parser dialect start).trans (Trace.adds_append _ rfl)⟩

def reply (path : Path) : Except ParserFault (Option Tree) → Except Failure (Option Tree)
  | .ok tree => .ok tree
  | .error (.badInput message) => .error (.problem (.parsing path path.dialect.name message))
  | .error (.problem problem) => .error (.problem problem)
  | .error fault => .error (.fault (.parser fault))

theorem outcome_parse {text : List CodePoint} (htext : Encoding.surrogateRun? text = none)
    (start : Trace) :
    ∃ trace, start.Adds trace [.parsed path.dialect (Encoding.encodeUtf8 text)] ∧
      (parse session path text).outcome start =
        (reply path ((session start.calls).parse path.dialect (Encoding.encodeUtf8 text)), trace) := by
  obtain ⟨trace, hcall, hadds⟩ :=
    adds_call (session start.calls) path.dialect (Encoding.encodeUtf8 text) start
  refine ⟨trace, hadds, ?_⟩
  unfold parse
  rw [Path.ofPath_text]
  simp only [htext]
  rw [outcome_bind_of_ok (outcome_get start)]
  rw [outcome_bind_of_ok hcall]
  cases (session start.calls).parse path.dialect (Encoding.encodeUtf8 text) with
  | ok tree => rfl
  | error fault => cases fault <;> rfl

theorem outcome_tally_of_ok {start trace : Trace} {tree : Option Tree}
    (h : (load host session encodingName path).outcome start = (.ok tree, trace)) :
    (tally host session encodingName path).outcome start = (.ok (tallyOf tree), trace) := by
  unfold tally
  rw [outcome_tryCatch]
  rw [outcome_map]
  rw [h]

theorem outcome_tally_of_problem {start trace : Trace} {problem : Problem}
    (h : (load host session encodingName path).outcome start = (.error (.problem problem), trace))
    (hanalysis : problem.isAnalysis = true) :
    ∃ trace', (tally host session encodingName path).outcome start = (.ok 0, trace') ∧
      trace.Adds trace' [.logged (Log.debug "analysis.counter"
        s!"Skipping {path.text}: {problem.text}")] := by
  have hannouncement := @Event.isAnnouncement_debug "analysis.counter" (by decide) (by decide) (by decide)
    s!"Skipping {path.text}: {problem.text}"
  refine ⟨_, ?_, Trace.adds_append trace hannouncement⟩
  unfold tally
  rw [outcome_tryCatch]
  rw [outcome_map]
  rw [h]
  simp only [hanalysis, ↓reduceIte]
  rfl

theorem outcome_tally (hname : Path.hasNul encodingName = false)
    (hencoding : Encoding.ofName? encodingName = some .utf8) (hpath : Path.hasNul path.text = false)
    {start : Trace} (hsession : (session start.calls).Answers) :
    ∃ trace, (tally host session encodingName path).outcome start =
        (.ok (host.fate (session start.calls) path).tally, trace) ∧
      start.Adds trace (host.fate (session start.calls) path).events := by
  have hload := @outcome_load host session encodingName path start
  rw [readText_eq hname hencoding hpath] at hload
  unfold Host.fate
  cases hbytes : host.readBytes path with
  | error error =>
    simp only [hbytes] at hload
    exact outcome_tally_of_problem hload rfl
  | ok bytes =>
    simp only [hbytes, Encoding.decode] at hload
    obtain ⟨trace, hadds, hparse⟩ := @outcome_parse session path _
      (Encoding.surrogateRun?_unifyLines_decodeUtf8 bytes) start
    rw [hparse] at hload
    change start.Adds trace [.parsed path.dialect (Encoding.repair bytes)] at hadds
    rcases hsession path.dialect (Encoding.repair bytes) with ⟨tree, htree⟩ | ⟨message, hmessage⟩
    . rw [Encoding.repair] at htree
      simp only [htree, reply] at hload
      rw [← Encoding.repair] at htree
      simp only [htree]
      exact ⟨trace, outcome_tally_of_ok hload, hadds⟩
    . rw [Encoding.repair] at hmessage
      simp only [hmessage, reply] at hload
      rw [← Encoding.repair] at hmessage
      simp only [hmessage]
      obtain ⟨trace', htally, hadds'⟩ := outcome_tally_of_problem hload rfl
      exact ⟨trace', htally, hadds.trans hadds'⟩

end SourceFile

namespace Scan

variable {host : Host} {session : ParserSession}

theorem adds_logAll {records : List Log.Record}
    (h : ∀ record ∈ records, (Event.logged record).isAnnouncement = false) (start : Trace) :
    ∃ trace, (logAll records).outcome start = (.ok (), trace) ∧
      start.Adds trace (records.map Event.logged) := by
  induction records generalizing start with
  | nil => exact ⟨start, rfl, Trace.Adds.refl start⟩
  | cons record records ih =>
    rw [List.forall_mem_cons] at h
    obtain ⟨trace, hlogged, hadds⟩ := ih h.2 { start with events := start.events ++ [.logged record] }
    unfold logAll log
    rw [outcome_bind_of_ok (outcome_emit _ _)]
    exact ⟨trace, hlogged, (Trace.adds_append start h.1).trans hadds⟩

theorem outcome_tallies {encodingName : String} (hname : Path.hasNul encodingName = false)
    (hencoding : Encoding.ofName? encodingName = some .utf8)
    (hsession : ∀ calls, (session calls).Answers) {paths : List Path}
    (hpaths : ∀ path ∈ paths, Path.hasNul path.text = false) (start : Trace) :
    ∃ trace, (tallies host session encodingName paths).outcome start =
        (.ok ((host.fates session start.calls paths).map Fate.tally), trace) ∧
      start.Adds trace ((host.fates session start.calls paths).flatMap Fate.events) := by
  induction paths generalizing start with
  | nil => exact ⟨start, rfl, Trace.Adds.refl start⟩
  | cons path paths ih =>
    rw [List.forall_mem_cons] at hpaths
    obtain ⟨trace, htally, hadds⟩ := @SourceFile.outcome_tally host session _ _ hname hencoding
      hpaths.1 start (hsession start.calls)
    obtain ⟨trace', htallies, hadds'⟩ := ih hpaths.2 trace
    -- the parser of the files that follow has seen the call for this one
    have hcalls : trace.calls =
        start.calls ++ (host.fate (session start.calls) path).call?.toList := by
      rw [hadds.calls]
      rw [Fate.filterMap_call?_events]
    rw [hcalls] at htallies hadds'
    unfold tallies Host.fates
    rw [outcome_bind_of_ok htally]
    rw [outcome_bind_of_ok htallies]
    exact ⟨trace', rfl, hadds.trans hadds'⟩

theorem isAnnouncement_refusal {options : Listing.Options} {top : Path} {record : Log.Record}
    (h : record ∈ (Listing.list host options top).2) :
    (Event.logged record).isAnnouncement = false := by
  rw [Listing.list_eq] at h
  obtain ⟨names, -, h⟩ := List.mem_flatMap.mp h
  unfold Listing.refusalIn at h
  split at h
  . rw [List.mem_singleton] at h
    subst h
    exact Event.isAnnouncement_debug (by decide) (by decide) (by decide) _
  . simp at h

def preamble (host : Host) (settings : Settings) (root : String) (patterns : List String) :
    List Event :=
  let path := Path.absolute host.cwd root
  let listing := Listing.list host
    { patterns := Settings.exclusions settings.excludePatterns patterns
      followLinks := settings.followLinks } path
  listing.2.map Event.logged ++
    [.logged (Log.debug "analysis.engine"
      s!"Found {listing.1.length} source files under {path.text}"), .found listing.1.length]

theorem outcome_directory_of_withholds {settings : Settings} {root : String} {patterns : List String}
    {error : FileError} (hwithholds : host.Withholds (Path.absolute host.cwd root) error)
    (start : Trace) :
    (directory host session settings root patterns).outcome start =
      (.error (.fault (.file error (Path.absolute host.cwd root).text)), start) := by
  have hroot : host.isDirectory (Path.absolute host.cwd root) = .error error :=
    Host.check_eq_error_iff.mpr hwithholds
  simp only [directory]
  rw [hroot]
  rfl

theorem outcome_directory {settings : Settings} {root : String} {patterns : List String}
    (hroot : host.isDirectory (Path.absolute host.cwd root) = .ok true) (start : Trace) :
    ∃ trace, start.Adds trace (preamble host settings root patterns) ∧
      (directory host session settings root patterns).outcome start =
        (Report.ofTallies (Path.absolute host.cwd root).text
            (sources host settings root patterns).length <$>
          tallies host session settings.encoding (sources host settings root patterns)).outcome trace := by
  unfold directory preamble sources
  simp only [hroot]
  generalize hlisting : Listing.list host _ _ = listing
  have hrecords : ∀ record ∈ listing.2, (Event.logged record).isAnnouncement = false := by
    rw [← hlisting]
    exact fun record h => isAnnouncement_refusal h
  obtain ⟨trace, hlogged, hadds⟩ := adds_logAll hrecords start
  have hfound := @Event.isAnnouncement_debug "analysis.engine" (by decide) (by decide) (by decide)
    s!"Found {listing.1.length} source files under {(Path.absolute host.cwd root).text}"
  refine ⟨_, hadds.trans ((Trace.adds_append trace hfound).trans (Trace.adds_append _ rfl)), ?_⟩
  rw [outcome_bind_of_ok hlogged]
  unfold debug log
  rw [outcome_bind_of_ok (outcome_emit _ _)]
  rw [outcome_bind_of_ok (outcome_emit _ _)]
  rw [bind_pure_comp]

theorem filterMap_call?_preamble (host : Host) (settings : Settings) (root : String)
    (patterns : List String) : (preamble host settings root patterns).filterMap Event.call? = [] := by
  simp [preamble, Event.call?, List.filterMap_append, List.filterMap_eq_nil_iff]

/--
A scan of something else than a directory ends with a problem before anything happens. A scan of a directory
counts what the fates of its files say, and everything that can be watched follows from the fates as well: the
directories that could not be read, the number of files, and then file by file the call of the parser and the record
about a file that is skipped. That a path cannot be looked up is no problem but a fault.
-/
theorem directory_follows_fates (host : Host) (hhost : host.WellFormed) (session : ParserSession)
    (hsession : ∀ calls, (session calls).Answers) (settings : Settings)
    (hname : Path.hasNul settings.encoding = false)
    (hencoding : Encoding.ofName? settings.encoding = some .utf8) (root : String)
    (patterns : List String) (start : Trace) :
    let path := Path.absolute host.cwd root
    let files := sources host settings root patterns
    let fates := host.fates session start.calls files
    let outcome := (directory host session settings root patterns).outcome start
    (∀ error, host.Withholds path error →
      outcome = (.error (.fault (.file error path.text)), start)) ∧
    (¬ host.HasDirectory path → (∀ error, ¬ host.Withholds path error) →
      outcome = (.error (.problem (.invalidPath path "not an existing directory")), start)) ∧
    (host.HasDirectory path →
      ∃ trace, outcome =
          (.ok { directory := path.text
                 files := files.length
                 totals := (fates.map Fate.tally).sum }, trace) ∧
        start.Adds trace (preamble host settings root patterns ++ fates.flatMap Fate.events)) := by
  intro path files fates outcome
  refine ⟨?_, ?_, ?_⟩
  . intro error hwithholds
    exact outcome_directory_of_withholds hwithholds start
  . intro hdirectory hwithholds
    simp only [outcome, directory]
    rw [Host.isDirectory_eq_ok_false hdirectory hwithholds]
    rfl
  . intro hdirectory
    have hroot := Host.isDirectory_eq_ok_true_iff.mpr hdirectory
    have hfiles := @hasNul_of_mem_sources host hhost settings root patterns hroot
    obtain ⟨trace, hadds, hscan⟩ := @outcome_directory host session settings root patterns hroot start
    have hcalls : trace.calls = start.calls := by
      rw [hadds.calls]
      rw [filterMap_call?_preamble]
      rw [List.append_nil]
    obtain ⟨trace', htallies, hadds'⟩ :=
      @outcome_tallies host session _ hname hencoding hsession _ hfiles trace
    rw [hcalls] at htallies hadds'
    refine ⟨trace', ?_, hadds.trans hadds'⟩
    simp only [outcome]
    rw [hscan]
    rw [outcome_map]
    rw [htallies]
    simp only [Report.ofTallies, Tally.sum_eq]
    rfl

def rejectingParser : Parser where
  read _ _ := .error (.badInput "no")
  announces := false

theorem list_sourceHost :
    Listing.list (sourceHost [97]) { patterns := Settings.exclusions [] [], followLinks := false }
      { anchor := .root, names := [] } = ([{ anchor := .root, names := ["a.ts"] }], []) := by
  cbv

theorem fates_sourceHost :
    (sourceHost [97]).fates rejectingParser [] [{ anchor := .root, names := ["a.ts"] }] =
      [.unparsable { anchor := .root, names := ["a.ts"] } .typescript [97] "no"] := by
  have hdialect : Path.dialect { anchor := .root, names := ["a.ts"] } = .typescript := by
    cbv
  have hbytes : Encoding.repair [97] = [97] := by
    cbv
  simp only [Host.fates, Host.fate, readBytes_sourceHost, hdialect, hbytes]
  rfl

theorem directory_follows_fates_sourceHost :
    (sourceHost [97]).WellFormed ∧ rejectingParser.Answers ∧
      Path.hasNul ({} : Settings).encoding = false ∧
      Encoding.ofName? ({} : Settings).encoding = some .utf8 ∧
      ∃ trace, (directory (sourceHost [97]) rejectingParser {} "." []).outcome {} =
          (.ok { directory := "/", files := 1, totals := 0 }, trace) ∧
        Trace.Adds {} trace
          ([.logged (Log.debug "analysis.engine" "Found 1 source files under /"), .found 1] ++
            (Fate.unparsable { anchor := .root, names := ["a.ts"] } .typescript [97] "no").events) := by
  have hanswers : rejectingParser.Answers := fun _ _ => .inr ⟨"no", rfl⟩
  have hname : Path.hasNul ({} : Settings).encoding = false := by cbv
  have hencoding : Encoding.ofName? ({} : Settings).encoding = some .utf8 := by cbv
  have hpath : Path.absolute (sourceHost [97]).cwd "." = { anchor := .root, names := [] } := by cbv
  have hroot := Host.isDirectory_eq_ok_true_iff.mp (isDirectory_sourceHost [97])
  obtain ⟨-, -, hscan⟩ := directory_follows_fates (sourceHost [97]) (wellFormed_sourceHost [97])
    rejectingParser (fun _ => hanswers) {} hname hencoding "." [] {}
  obtain ⟨trace, houtcome, hadds⟩ := hscan hroot
  have hcalls : ({} : Trace).calls = [] := rfl
  simp only [sources, preamble, hpath, list_sourceHost, hcalls, fates_sourceHost] at houtcome hadds
  exact ⟨wellFormed_sourceHost [97], hanswers, hname, hencoding, trace, houtcome, hadds⟩

def repeatedName (length : Nat) : String := String.ofList (List.replicate length 'a')

section RepeatedName

variable {length : Nat}

theorem utf8ByteSize_repeatedName : (repeatedName length).utf8ByteSize = length := by
  unfold repeatedName
  rw [String.utf8ByteSize_ofList]
  induction length with
  | zero => rfl
  | succ length ih =>
    rw [List.replicate_succ]
    rw [String.utf8Len_cons]
    rw [ih]
    rfl

theorem mem_repeatedName {c : Char} (h : c ∈ (repeatedName length).toList) : c = 'a' := by
  unfold repeatedName at h
  rw [String.toList_ofList] at h
  exact List.eq_of_mem_replicate h

theorem ne_of_utf8ByteSize_lt {text : String} (h : text.utf8ByteSize < length) :
    repeatedName length ≠ text := by
  intro heq
  rw [← heq] at h
  rw [utf8ByteSize_repeatedName] at h
  omega

variable (hlength : 2 < length)

include hlength

theorem isStep_repeatedName : Path.IsStep (repeatedName length) := by
  refine ⟨?_, ?_, ?_⟩
  . apply ne_of_utf8ByteSize_lt
    exact Nat.lt_of_le_of_lt (by decide) hlength
  . apply ne_of_utf8ByteSize_lt
    exact Nat.lt_of_le_of_lt (by decide) hlength
  . intro h
    exact absurd (mem_repeatedName h) (by decide)

theorem repeatedName_ne_dots : repeatedName length ≠ ".." := by
  apply ne_of_utf8ByteSize_lt
  exact Nat.lt_of_le_of_lt (by decide) hlength

theorem absolute_repeatedName :
    Path.absolute [] (repeatedName length) = { anchor := .root, names := [repeatedName length] } := by
  have hstep := isStep_repeatedName hlength
  have hanchor : Anchor.ofText (repeatedName length) = .here := by
    unfold Anchor.ofText
    split
    . next h => exact absurd (h ▸ List.mem_cons_self) hstep.slash_notMem
    . next h => exact absurd (h ▸ List.mem_cons_self) hstep.slash_notMem
    . next h => exact absurd (h ▸ List.mem_cons_self) hstep.slash_notMem
    . rfl
  have hparts : Path.parts (repeatedName length) = [repeatedName length] := by
    have hparts := @Path.parts_intercalate [repeatedName length] (by simp)
      (by simpa using hstep.slash_notMem)
    rwa [String.intercalate_singleton] at hparts
  have hnames : Path.namesOf (repeatedName length) = [repeatedName length] := by
    unfold Path.namesOf
    rw [hparts]
    simp [hstep.ne_empty, hstep.ne_dot]
  unfold Path.absolute Path.ofText
  rw [hanchor]
  rw [hnames]
  simp [Path.isAbsolute, Path.collapse, Path.collapse.step, repeatedName_ne_dots hlength]

theorem withholds_repeatedName (hname : Host.maxNameBytes < length)
    (hpath : length + 1 < Host.maxPathBytes) :
    (sourceHost []).Withholds { anchor := .root, names := [repeatedName length] } .nameTooLong := by
  have hstep := isStep_repeatedName hlength
  have hproper : Path.IsProper { anchor := .root, names := [repeatedName length] } := by
    simpa [Path.IsProper] using hstep
  have hpermits : (sourceHost []).Permits
      (Path.text { anchor := .root, names := [repeatedName length] }) := by
    refine ⟨?_, rfl⟩
    rw [Path.text_of_names_ne_nil (by simp)]
    rw [String.utf8ByteSize_append]
    rw [String.intercalate_singleton]
    rw [utf8ByteSize_repeatedName]
    have hslash : Anchor.root.text.utf8ByteSize = 1 := by decide
    simp only [hslash]
    omega
  refine ⟨?_, ?_, rfl⟩
  . rw [Path.hasNul_text_eq_false_iff]
    simp only [List.mem_singleton, forall_eq]
    intro h
    exact absurd (mem_repeatedName h) (by decide)
  . unfold Host.resolve Host.locate
    rw [Host.find_of_permits hpermits]
    rw [Host.follow_text hproper (by simp)]
    rw [Host.walk]
    simp [sourceHost, Host.origin, Host.nodeAt, Node.isDirectory, hstep.ne_dot,
      repeatedName_ne_dots hlength, utf8ByteSize_repeatedName, hname]
    rfl

end RepeatedName

/--
That a name is too long to be looked up is not reported as a problem with the directory.
-/
theorem directory_name_too_long :
    ¬ (sourceHost []).HasDirectory (Path.absolute (sourceHost []).cwd (repeatedName 256)) ∧
      (directory (sourceHost []) rejectingParser {} (repeatedName 256) []).outcome {} =
        (.error (.fault (.file .nameTooLong
          (Path.absolute (sourceHost []).cwd (repeatedName 256)).text)), {}) := by
  have hwithholds : (sourceHost []).Withholds
      (Path.absolute (sourceHost []).cwd (repeatedName 256)) .nameTooLong := by
    have hcwd : (sourceHost []).cwd = [] := rfl
    rw [hcwd]
    rw [absolute_repeatedName (by decide)]
    exact withholds_repeatedName (by decide) (by decide) (by decide)
  constructor
  . rintro ⟨-, entries, hresolve⟩
    rw [hwithholds.2.1] at hresolve
    cases hresolve
  . exact outcome_directory_of_withholds hwithholds {}

end Scan

end ParadigmScan
