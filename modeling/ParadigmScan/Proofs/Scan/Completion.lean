import Mathlib
import ParadigmScan.Proofs.Encoding.Refusal
import ParadigmScan.Proofs.Failure
import ParadigmScan.Proofs.Listing.Tour
import ParadigmScan.Scan.Directory

/-!
This module contains when a scan comes to its end. Neither a file that cannot be read nor one that cannot be
parsed keeps it from a result, but a file whose bytes are refused by the encoding does.
-/

namespace ParadigmScan

namespace Scan

variable {α β : Type}

/--
The operation comes to a result.
-/
def Completes (scan : Scan α) (start : Trace) : Prop :=
  ∃ result, (scan.outcome start).1 = .ok result

theorem completes_iff {scan : Scan α} {start : Trace} :
    Completes scan start ↔ ∃ result trace, scan.outcome start = (.ok result, trace) := by
  unfold Completes
  cases scan.outcome start with
  | mk result trace => simp

theorem outcome_bind (scan : Scan α) (next : α → Scan β) (start : Trace) :
    (scan >>= next).outcome start =
      match scan.outcome start with
      | (.ok result, trace) => (next result).outcome trace
      | (.error failure, trace) => (.error failure, trace) := by
  cases hscan : scan.outcome start with
  | mk result trace =>
    cases result with
    | ok result => exact run_bind_of_ok hscan
    | error failure => exact run_bind_of_error hscan

theorem outcome_bind_of_ok {scan : Scan α} {next : α → Scan β} {start trace : Trace} {result : α}
    (h : scan.outcome start = (.ok result, trace)) :
    (scan >>= next).outcome start = (next result).outcome trace := by
  rw [outcome_bind]
  rw [h]

theorem outcome_bind_of_error {scan : Scan α} {next : α → Scan β} {start trace : Trace}
    {failure : Failure} (h : scan.outcome start = (.error failure, trace)) :
    (scan >>= next).outcome start = (.error failure, trace) := by
  rw [outcome_bind]
  rw [h]

theorem outcome_tryCatch (scan : Scan α) (handle : Failure → Scan α) (start : Trace) :
    (tryCatch scan handle).outcome start =
      match scan.outcome start with
      | (.ok result, trace) => (.ok result, trace)
      | (.error failure, trace) => (handle failure).outcome trace := by
  cases hscan : scan.outcome start with
  | mk result trace =>
    unfold outcome at hscan ⊢
    rw [ExceptT.run_tryCatch]
    rw [StateT.run_bind]
    rw [hscan]
    cases result <;> rfl

theorem outcome_liftM (result : Except Failure α) (start : Trace) :
    (liftM result : Scan α).outcome start = (result, start) := by
  cases result <;> rfl

theorem outcome_get (start : Trace) : (get : Scan Trace).outcome start = (.ok start, start) := rfl

theorem outcome_emit (event : Event) (start : Trace) :
    (emit event).outcome start = (.ok (), { start with events := start.events ++ [event] }) := rfl

theorem completes_bind {scan : Scan α} {next : α → Scan β} {start : Trace} :
    Completes (scan >>= next) start ↔
      ∃ result trace, scan.outcome start = (.ok result, trace) ∧ Completes (next result) trace := by
  unfold Completes
  rw [outcome_bind]
  cases hscan : scan.outcome start with
  | mk result trace => cases result <;> simp

theorem completes_bind_of_outcome {scan : Scan α} {next : α → Scan β} {start trace : Trace}
    {result : α} (h : scan.outcome start = (.ok result, trace)) :
    Completes (scan >>= next) start ↔ Completes (next result) trace := by
  unfold Completes
  rw [outcome_bind_of_ok h]

theorem completes_bind_pure {scan : Scan α} {f : α → β} {start : Trace} :
    Completes (scan >>= fun result => pure (f result)) start ↔ Completes scan start := by
  rw [completes_bind]
  rw [completes_iff]
  constructor
  . rintro ⟨result, trace, h, -⟩
    exact ⟨result, trace, h⟩
  . rintro ⟨result, trace, h⟩
    exact ⟨result, trace, h, _, rfl⟩

theorem outcome_map (f : α → β) (scan : Scan α) (start : Trace) :
    (f <$> scan).outcome start =
      match scan.outcome start with
      | (.ok result, trace) => (.ok (f result), trace)
      | (.error failure, trace) => (.error failure, trace) := by
  rw [← bind_pure_comp]
  rw [outcome_bind]
  rfl

end Scan

/--
What happened when a parser has its engine for a dialect. If it keeps engines, it has built the engine at the
first use of the dialect.
-/
def Trace.prepared (trace : Trace) (parser : Parser) (dialect : Dialect) : Trace :=
  if parser.announces = true ∧ dialect ∉ trace.ready.dialects then
    { events := trace.events ++ [.logged (Parser.announcement dialect)]
      ready := trace.ready.add dialect }
  else
    trace

namespace SourceFile

open Scan

variable {host : Host} {parser : Parser} {session : ParserSession} {encodingName : String}
  {encoding : Encoding} {path : Path}

/--
An operation on a source file that ends early with nothing but problems of the file.
-/
def EndsWell (outcome : Except Failure (Option Tree) × Trace) : Prop :=
  (∃ tree, outcome.1 = .ok tree) ∨
    ∃ problem, outcome.1 = .error (.problem problem) ∧ problem.isAnalysis = true

theorem outcome_prepare (dialect : Dialect) (start : Trace) :
    (parser.prepare dialect).outcome start =
      (.ok (.ofDialect dialect), start.prepared parser dialect) := by
  unfold Parser.prepare Trace.prepared
  rw [outcome_bind_of_ok (outcome_get start)]
  have hnew := @Engines.get?_eq_none_iff start.ready dialect
  cases hget : start.ready.get? dialect with
  | some engine =>
    rw [hget] at hnew
    have hkept : ¬ (parser.announces = true ∧ dialect ∉ start.ready.dialects) := by
      simpa using fun _ => hnew
    rw [Engines.eq_of_get? hget]
    rw [if_neg hkept]
    rfl
  | none =>
    cases hannounces : parser.announces with
    | true =>
      rw [if_pos rfl]
      rw [if_pos ⟨rfl, hnew.mp hget⟩]
      rfl
    | false => rfl

theorem outcome_call (dialect : Dialect) (bytes : List UInt8) (start : Trace) :
    (parser.call dialect bytes).outcome start =
      (.ok (parser.parse dialect bytes),
        { start.prepared parser dialect with
          events := (start.prepared parser dialect).events ++ [.parsed dialect bytes] }) := by
  unfold Parser.call
  rw [outcome_bind_of_ok (outcome_prepare dialect start)]
  rw [outcome_bind_of_ok (outcome_emit _ _)]
  rfl

theorem endsWell_parse
    (hsession : ∀ calls dialect bytes, ∃ tree, (session calls).parse dialect bytes = .ok (some tree))
    (text : List CodePoint) (start : Trace) : EndsWell ((parse session path text).outcome start) := by
  unfold parse
  simp only
  split
  . exact Or.inr ⟨_, rfl, rfl⟩
  . obtain ⟨tree, htree⟩ :=
      hsession start.calls (Dialect.ofPath path.text) (Encoding.encodeUtf8 text)
    rw [outcome_bind_of_ok (outcome_get start)]
    rw [outcome_bind_of_ok (outcome_call _ _ start)]
    rw [htree]
    exact Or.inl ⟨_, rfl⟩

theorem readText_eq (hname : Path.hasNul encodingName = false)
    (hencoding : Encoding.ofName? encodingName = some encoding)
    (hpath : Path.hasNul path.text = false) :
    readText host encodingName path =
      match host.readBytes path with
      | .error error =>
        .error (.problem (.fileAccess path s!"Cannot read file: {error.message path.text}"))
      | .ok bytes =>
        match encoding.decode host.platform.decode bytes with
        | .ok text => .ok (Encoding.unifyLines text)
        | .error error => .error (.fault (.undecodable encodingName error)) := by
  unfold readText
  simp only [hname, hpath, hencoding]
  cases host.readBytes path with
  | error error => rfl
  | ok bytes =>
    simp only [Bool.false_eq_true, ↓reduceIte]
    cases encoding.decode host.platform.decode bytes <;> rfl

theorem outcome_load (start : Trace) :
    (load host session encodingName path).outcome start =
      match readText host encodingName path with
      | .ok text => (parse session path text).outcome start
      | .error failure => (.error failure, start) := by
  unfold load
  rw [outcome_bind]
  rw [outcome_liftM]
  cases readText host encodingName path <;> rfl

theorem completes_tally_of_endsWell {start : Trace}
    (h : EndsWell ((load host session encodingName path).outcome start)) :
    Completes (tally host session encodingName path) start := by
  unfold Completes tally
  rw [outcome_tryCatch]
  rw [outcome_map]
  cases hload : (load host session encodingName path).outcome start with
  | mk result trace =>
    rw [hload] at h
    rcases h with ⟨tree, htree⟩ | ⟨problem, hproblem, hanalysis⟩
    . simp only at htree
      subst htree
      exact ⟨_, rfl⟩
    . simp only at hproblem
      subst hproblem
      simp only [hanalysis, ↓reduceIte]
      exact ⟨_, rfl⟩

section Named

variable (session)

variable (hname : Path.hasNul encodingName = false)
  (hencoding : Encoding.ofName? encodingName = some encoding)
  (hpath : Path.hasNul path.text = false)

include hname hencoding hpath

theorem completes_tally_of_unreadable {error : FileError} (h : host.readBytes path = .error error)
    (start : Trace) : Completes (tally host session encodingName path) start := by
  apply completes_tally_of_endsWell
  rw [outcome_load]
  rw [readText_eq hname hencoding hpath]
  simp only [h]
  exact Or.inr ⟨_, rfl, rfl⟩

theorem completes_tally_of_decoded
    (hsession : ∀ calls dialect bytes, ∃ tree, (session calls).parse dialect bytes = .ok (some tree))
    {bytes : List UInt8} {text : List CodePoint} (h : host.readBytes path = .ok bytes)
    (hdecode : encoding.decode host.platform.decode bytes = .ok text) (start : Trace) :
    Completes (tally host session encodingName path) start := by
  apply completes_tally_of_endsWell
  rw [outcome_load]
  rw [readText_eq hname hencoding hpath]
  simp only [h, hdecode]
  exact endsWell_parse hsession _ start

theorem outcome_tally_of_undecoded {bytes : List UInt8} {error : Encoding.DecodeError}
    (h : host.readBytes path = .ok bytes) (hdecode : encoding.decode host.platform.decode bytes = .error error)
    (start : Trace) :
    (tally host session encodingName path).outcome start =
      (.error (.fault (.undecodable encodingName error)), start) := by
  unfold tally
  rw [outcome_tryCatch]
  rw [outcome_map]
  rw [outcome_load]
  rw [readText_eq hname hencoding hpath]
  simp only [h, hdecode]
  rfl

theorem completes_tally_iff
    (hsession : ∀ calls dialect bytes, ∃ tree, (session calls).parse dialect bytes = .ok (some tree))
    (start : Trace) :
    Completes (tally host session encodingName path) start ↔
      ∀ bytes, host.readBytes path = .ok bytes → ¬ encoding.Refuses bytes := by
  cases hbytes : host.readBytes path with
  | error error =>
    have := completes_tally_of_unreadable session hname hencoding hpath hbytes start
    simp [this]
  | ok bytes =>
    simp only [Except.ok.injEq, forall_eq']
    rw [← @Encoding.exists_decode_eq_error_iff _ host.platform.decode]
    cases hdecode : encoding.decode host.platform.decode bytes with
    | ok text =>
      have := completes_tally_of_decoded session hname hencoding hpath hsession hbytes hdecode start
      simp [this]
    | error error =>
      have := outcome_tally_of_undecoded session hname hencoding hpath hbytes hdecode start
      simp [Completes, this]

end Named

end SourceFile

namespace Scan

variable {host : Host} {session : ParserSession} {encodingName : String} {encoding : Encoding}

theorem outcome_logAll (records : List Log.Record) (start : Trace) :
    ∃ trace, (logAll records).outcome start = (.ok (), trace) := by
  induction records generalizing start with
  | nil => exact ⟨start, rfl⟩
  | cons record records ih =>
    unfold logAll
    rw [outcome_bind]
    exact ih _

theorem completes_tallies_iff (hname : Path.hasNul encodingName = false)
    (hencoding : Encoding.ofName? encodingName = some encoding)
    (hsession : ∀ calls dialect bytes, ∃ tree, (session calls).parse dialect bytes = .ok (some tree))
    {paths : List Path} (hpaths : ∀ path ∈ paths, Path.hasNul path.text = false) (start : Trace) :
    Completes (tallies host session encodingName paths) start ↔
      ∀ path ∈ paths, ∀ bytes, host.readBytes path = .ok bytes → ¬ encoding.Refuses bytes := by
  induction paths generalizing start with
  | nil => simpa using ⟨_, rfl⟩
  | cons path paths ih =>
    have hpath := hpaths path (by simp)
    have hrest : ∀ other ∈ paths, Path.hasNul other.text = false :=
      fun other h => hpaths other (by simp [h])
    have hfirst := @SourceFile.completes_tally_iff host session _ _ path hname hencoding hpath hsession
    rw [List.forall_mem_cons]
    rw [← hfirst start]
    unfold tallies
    rw [completes_bind]
    rw [completes_iff]
    simp only [completes_bind_pure, ih hrest]
    constructor
    . rintro ⟨result, trace, htally, htallies⟩
      exact ⟨⟨result, trace, htally⟩, htallies⟩
    . rintro ⟨⟨result, trace, htally⟩, htallies⟩
      exact ⟨result, trace, htally, htallies⟩

def sources (host : Host) (settings : Settings) (root : String) (patterns : List String) : List Path :=
  (Listing.list host
    { patterns := Settings.exclusions settings.excludePatterns patterns
      followLinks := settings.followLinks }
    (Path.absolute host.cwd root)).1

theorem hasNul_of_isDirectory {path : Path} (h : host.isDirectory path = .ok true) :
    Path.hasNul path.text = false := by
  cases hnul : Path.hasNul path.text with
  | false => rfl
  | true => simp [Host.isDirectory, Host.check, hnul] at h

theorem hasNul_of_mem_sources (hhost : host.WellFormed) {settings : Settings} {root : String}
    {patterns : List String} (hroot : host.isDirectory (Path.absolute host.cwd root) = .ok true) :
    ∀ path ∈ sources host settings root patterns, Path.hasNul path.text = false := by
  intro path hpath
  unfold sources at hpath
  rw [Listing.list_eq] at hpath
  obtain ⟨names, hnames, rfl⟩ := List.mem_map.mp hpath
  obtain ⟨other, hother, hnames⟩ := List.mem_flatMap.mp hnames
  apply Path.hasNul_text_descend (hasNul_of_isDirectory hroot)
  intro name hname
  exact (Listing.isName_of_mem_filesIn hhost hother hnames name hname).nul_notMem

theorem completes_directory_iff_tallies {settings : Settings} {root : String} {patterns : List String}
    (hroot : host.isDirectory (Path.absolute host.cwd root) = .ok true) (start : Trace) :
    ∃ trace, Completes (directory host session settings root patterns) start ↔
      Completes (tallies host session settings.encoding (sources host settings root patterns)) trace := by
  obtain ⟨logged, hlogged⟩ := outcome_logAll (Listing.list host
    { patterns := Settings.exclusions settings.excludePatterns patterns
      followLinks := settings.followLinks } (Path.absolute host.cwd root)).2 start
  unfold directory
  simp only [hroot]
  rw [completes_bind_of_outcome hlogged]
  unfold debug log
  rw [completes_bind_of_outcome (outcome_emit _ _)]
  rw [completes_bind_of_outcome (outcome_emit _ _)]
  rw [completes_bind_pure]
  exact ⟨_, Iff.rfl⟩

theorem valueOr_of_ofArguments {platform : Platform} {values : Table Value} {settings : Settings}
    (h : Settings.ofArguments platform values = .ok settings) :
    Settings.valueOr values "encoding" "utf-8" Settings.checkEncoding = .ok settings.encoding := by
  unfold Settings.ofArguments at h
  split at h
  . simp at h
  . simp at h
  . rw [mapError_eq_ok_iff] at h
    unfold Settings.ofValues at h
    simp only [bind_eq_ok_iff] at h
    obtain ⟨_, -, name, hname, _, -, _, -, _, -, hsettings⟩ := h
    simp only [pure, Except.pure, Except.ok.injEq] at hsettings
    rw [← hsettings]
    exact hname

theorem encoding_of_ofArguments {platform : Platform} {values : Table Value} {settings : Settings}
    (h : Settings.ofArguments platform values = .ok settings) :
    Path.hasNul settings.encoding = false ∧
      ∃ encoding, Encoding.ofName? settings.encoding = some encoding := by
  have hvalue := valueOr_of_ofArguments h
  unfold Settings.valueOr at hvalue
  split at hvalue
  . next value hlookup =>
    unfold Settings.checkEncoding at hvalue
    split at hvalue
    . next name =>
      split at hvalue
      . simp at hvalue
      . next hnul =>
        split at hvalue
        . next hsome =>
          simp only [Except.ok.injEq] at hvalue
          rw [← hvalue]
          exact ⟨by simpa using hnul, Option.isSome_iff_exists.mp hsome⟩
        . simp at hvalue
    . simp at hvalue
  . simp only [Except.ok.injEq] at hvalue
    rw [← hvalue]
    exact ⟨by cbv, .utf8, by cbv⟩

/--
With settings that are accepted and a parser that turns everything into a tree, a source file has a tally and a
directory has a report if and only if no file that can be read is refused by the encoding. A refused file ends
the scan with a fault.
-/
theorem completes_iff_not_refused {platform : Platform} {values : Table Value} {settings : Settings}
    (hsettings : Settings.ofArguments platform values = .ok settings) {host : Host}
    (hhost : host.WellFormed) {session : ParserSession}
    (hsession : ∀ calls dialect bytes, ∃ tree, (session calls).parse dialect bytes = .ok (some tree)) :
    ∃ encoding, Encoding.ofName? settings.encoding = some encoding ∧
      (∀ path, Path.hasNul path.text = false → ∀ start,
        (Completes (SourceFile.tally host session settings.encoding path) start ↔
          ∀ bytes, host.readBytes path = .ok bytes → ¬ encoding.Refuses bytes) ∧
        ∀ bytes, host.readBytes path = .ok bytes → encoding.Refuses bytes →
          ∃ error, encoding.decode host.platform.decode bytes = .error error ∧
            (SourceFile.tally host session settings.encoding path).outcome start =
              (.error (.fault (.undecodable settings.encoding error)), start)) ∧
      ∀ root patterns, host.isDirectory (Path.absolute host.cwd root) = .ok true → ∀ start,
        (Completes (directory host session settings root patterns) start ↔
          ∀ path ∈ sources host settings root patterns, ∀ bytes, host.readBytes path = .ok bytes →
            ¬ encoding.Refuses bytes) := by
  obtain ⟨hname, encoding, hencoding⟩ := encoding_of_ofArguments hsettings
  refine ⟨encoding, hencoding, ?_, ?_⟩
  . intro path hpath start
    refine ⟨SourceFile.completes_tally_iff session hname hencoding hpath hsession start, ?_⟩
    intro bytes hbytes hrefuses
    obtain ⟨error, herror⟩ := Encoding.exists_decode_eq_error_iff.mpr hrefuses
    exact ⟨error, herror,
      SourceFile.outcome_tally_of_undecoded session hname hencoding hpath hbytes herror start⟩
  . intro root patterns hroot start
    obtain ⟨trace, htallies⟩ := completes_directory_iff_tallies hroot start
    rw [htallies]
    exact completes_tallies_iff hname hencoding hsession (hasNul_of_mem_sources hhost hroot) trace

def sourceHost (bytes : List UInt8) : Host where
  tree := .directory [("a.ts", .file bytes)]
  cwd := []
  denied := []

section Sample

variable (bytes : List UInt8)

theorem wellFormed_sourceHost : (sourceHost bytes).WellFormed := by
  refine ⟨?_, ⟨_, rfl⟩⟩
  simp only [sourceHost, Node.WellFormed, Node.WellFormedEntries, and_true, List.map_cons,
    List.map_nil]
  decide

theorem isDirectory_sourceHost :
    (sourceHost bytes).isDirectory (Path.absolute (sourceHost bytes).cwd ".") = .ok true := by
  cbv

theorem sources_sourceHost :
    sources (sourceHost bytes) { encoding := "utf-16" } "." [] =
      [{ anchor := .root, names := ["a.ts"] }] := by
  cbv

theorem readBytes_sourceHost :
    (sourceHost bytes).readBytes { anchor := .root, names := ["a.ts"] } = .ok bytes := by
  cbv

end Sample

theorem ofArguments_utf16 :
    Settings.ofArguments {} [("encoding", .text "utf-16")] = .ok { encoding := "utf-16" } := by
  cbv

theorem ofName?_utf16 : Encoding.ofName? "utf-16" = some .utf16 := by
  cbv

theorem completes_iff_not_refused_sourceHost :
    Settings.ofArguments {} [("encoding", .text "utf-16")] = .ok { encoding := "utf-16" } ∧
      (sourceHost [0xFF, 0xFE, 0x61, 0]).WellFormed ∧
      Completes (directory (sourceHost [0xFF, 0xFE, 0x61, 0]) Parser.grammar { encoding := "utf-16" } "." [])
        {} := by
  refine ⟨ofArguments_utf16, wellFormed_sourceHost _, ?_⟩
  obtain ⟨encoding, hencoding, -, hdirectory⟩ :=
    @completes_iff_not_refused _ _ _ ofArguments_utf16 _
      (wellFormed_sourceHost [0xFF, 0xFE, 0x61, 0]) Parser.grammar fun _ _ _ => ⟨_, rfl⟩
  rw [ofName?_utf16] at hencoding
  simp only [Option.some.injEq] at hencoding
  subst hencoding
  rw [hdirectory "." [] (isDirectory_sourceHost _)]
  rw [sources_sourceHost]
  simp only [List.mem_singleton, forall_eq, readBytes_sourceHost, Except.ok.injEq, forall_eq']
  simp [Encoding.Refuses]

theorem not_completes_sourceHost :
    Settings.ofArguments {} [("encoding", .text "utf-16")] = .ok { encoding := "utf-16" } ∧
      (sourceHost [0x61, 0x62]).isDirectory (Path.absolute (sourceHost [0x61, 0x62]).cwd ".") =
        .ok true ∧
      { anchor := .root, names := ["a.ts"] } ∈
        sources (sourceHost [0x61, 0x62]) { encoding := "utf-16" } "." [] ∧
      (SourceFile.tally (sourceHost [0x61, 0x62]) Parser.grammar "utf-16"
        { anchor := .root, names := ["a.ts"] }).outcome =
        (.error (.fault (.undecodable "utf-16" (.unmarked 16))), {}) ∧
      ¬ Completes (directory (sourceHost [0x61, 0x62]) Parser.grammar { encoding := "utf-16" } "." []) {} := by
  have hname : Path.hasNul "utf-16" = false := by cbv
  refine ⟨ofArguments_utf16, isDirectory_sourceHost _, ?_, ?_, ?_⟩
  . rw [sources_sourceHost]
    simp
  . apply SourceFile.outcome_tally_of_undecoded _ hname ofName?_utf16 (by cbv)
      (readBytes_sourceHost _)
    cbv
  . obtain ⟨trace, htallies⟩ := completes_directory_iff_tallies (isDirectory_sourceHost _) {}
    rw [htallies]
    rw [completes_tallies_iff hname ofName?_utf16 (fun _ _ _ => ⟨_, rfl⟩)
      (hasNul_of_mem_sources (wellFormed_sourceHost _) (isDirectory_sourceHost _))]
    rw [sources_sourceHost]
    simp only [List.mem_singleton, forall_eq, readBytes_sourceHost, Except.ok.injEq, forall_eq']
    simp [Encoding.Refuses]

end Scan

end ParadigmScan
