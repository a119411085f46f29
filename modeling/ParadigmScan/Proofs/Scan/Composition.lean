import ParadigmScan.Proofs.FileTree.Absolute
import ParadigmScan.Proofs.Listing.Subdirectories
import ParadigmScan.Proofs.Scan.Fates
import ParadigmScan.Proofs.Settings.Exclusions

/-!
This module contains that the report about a directory is made up of its own files and the reports about the directories
in it, if no pattern reaches over a slash.
-/

namespace ParadigmScan

namespace Host

theorem map_tally_fates (host : Host) (parser : Parser) (calls : List (Dialect × List UInt8))
    (paths : List Path) :
    (host.fates parser calls paths).map Fate.tally =
      paths.map fun path => (host.fate parser path).tally := by
  induction paths generalizing calls with
  | nil => rfl
  | cons path paths ih =>
    rw [fates]
    rw [List.map_cons]
    rw [List.map_cons]
    rw [ih]

end Host

namespace Listing

def ownFiles (patterns : List String) (entries : List (String × Node)) : List (String × Node) :=
  entries.filter fun entry =>
    entry.2.isFile && isSourceFile entry.1 && !decide (ContainsPattern patterns entry.1)

def subdirectories (patterns : List String) (entries : List (String × Node)) : List (String × Node) :=
  entries.filter fun entry =>
    entry.2.isDirectory && !skippedDirectories.contains entry.1 &&
      !decide (ContainsPattern patterns entry.1)

variable {options : Options} {patterns : List String}
  (hpatterns : isExcluded options.patterns = isExcluded patterns)

include hpatterns

theorem filter_takesFile (entries : List (String × Node)) :
    entries.filter (takesFile options []) = ownFiles patterns entries := by
  apply List.filter_congr
  intro entry _
  obtain ⟨name, node⟩ := entry
  rw [decide_containsPattern]
  rw [← hpatterns]
  cases node <;> simp [takesFile, takes, relativeText, EntryKind.ofNode, Node.isFile]

theorem filter_takesDirectory (hskipped : options.skipped = skippedDirectories)
    (entries : List (String × Node)) :
    entries.filter (takesDirectory options []) = subdirectories patterns entries := by
  apply List.filter_congr
  intro entry _
  obtain ⟨name, node⟩ := entry
  rw [decide_containsPattern]
  rw [← hpatterns]
  rw [← hskipped]
  cases node <;> simp [takesDirectory, takes, relativeText, EntryKind.ofNode, Node.isDirectory]

end Listing

namespace Scan

/--
A scan of the directory gives the report, whatever happened before.
-/
def Reports (host : Host) (parser : Parser) (settings : Settings) (root : String) (patterns : List String)
    (report : Report) : Prop :=
  ∀ start, ∃ trace,
    (directory host parser settings root patterns).outcome start = (.ok report, trace)

def Fails (host : Host) (parser : Parser) (settings : Settings) (root : String)
    (patterns : List String) : Prop :=
  ∀ start, ∃ failure trace,
    (directory host parser settings root patterns).outcome start = (.error failure, trace)

section Directory

variable {host : Host} (hhost : host.WellFormed) {parser : Parser} {settings : Settings}
  (hname : Path.hasNul settings.encoding = false)
  (hencoding : Encoding.ofName? settings.encoding = some .utf8)

theorem fails_of_withholds {root : String} {patterns : List String} {error : FileError}
    (hwithholds : host.Withholds (Path.absolute host.cwd root) error) :
    Fails host parser settings root patterns := fun start =>
  ⟨_, _, outcome_directory_of_withholds hwithholds start⟩

def reportOf (host : Host) (parser : Parser) (path : Path) (files : List Path) : Report where
  directory := path.text
  files := files.length
  totals := (files.map fun file => (host.fate parser file).tally).sum

include hhost hname hencoding

theorem reports_of_hasDirectory (hparser : parser.Answers) {root : String}
    (hroot : host.HasDirectory (Path.absolute host.cwd root)) (patterns : List String) :
    Reports host parser settings root patterns
      (reportOf host parser (Path.absolute host.cwd root) (sources host settings root patterns)) := by
  intro start
  have hroot := Host.isDirectory_eq_ok_true_iff.mpr hroot
  have hfiles := @hasNul_of_mem_sources host hhost settings root patterns hroot
  obtain ⟨trace, -, hscan⟩ := @outcome_directory host parser settings root patterns hroot start
  obtain ⟨trace', htallies, -⟩ :=
    @outcome_tallies host parser _ hname hencoding (fun _ => hparser) _ hfiles trace
  refine ⟨trace', ?_⟩
  rw [hscan]
  rw [outcome_map]
  rw [htallies]
  rw [Host.map_tally_fates]
  simp only [Report.ofTallies, Tally.sum_eq]
  rfl

end Directory

section Composition

variable {host : Host} {settings : Settings} {root : String} {patterns : List String}

theorem isExcluded_exclusions (configured run : List String) :
    isExcluded (Settings.exclusions configured run) = isExcluded (configured ++ run) := by
  apply isExcluded_congr
  intro pattern hne
  rw [Settings.mem_exclusions]
  simp [hne]

variable (hhost : host.WellFormed)

include hhost

theorem isCollapsed_root : (Path.absolute host.cwd root).IsCollapsed :=
  Path.isCollapsed_absolute (fun name hname => (hhost.isName_cwd name hname).toIsStep) root

variable {entries : List (String × Node)}
  (hentries : host.listEntries (Path.absolute host.cwd root) = .ok entries)

include hentries

theorem absolute_child {entry : String × Node} (hentry : entry ∈ entries) :
    Path.absolute host.cwd ((Path.absolute host.cwd root).child entry.1).text =
      (Path.absolute host.cwd root).child entry.1 := by
  have hroot := @isCollapsed_root host root hhost
  have hname := Host.isName_of_mem_listEntries hhost hentries hentry
  apply Path.absolute_text
  refine ⟨hroot.isAbsolute, hroot.isProper.descend (by simpa using hname.toIsStep), ?_⟩
  intro name hmem
  rcases List.mem_append.mp hmem with hmem | hmem
  . exact hroot.ne_dots name hmem
  . rw [List.mem_singleton.mp hmem]
    exact hname.ne_dots

theorem hasDirectory_child {patterns : List String} {entry : String × Node}
    (hnul : Path.hasNul ((Path.absolute host.cwd root).child entry.1).text = false)
    (hentry : entry ∈ Listing.subdirectories patterns entries)
    (hpermits : host.Permits ((Path.absolute host.cwd root).child entry.1).text) :
    host.HasDirectory ((Path.absolute host.cwd root).child entry.1) := by
  obtain ⟨-, found, hresolve, rfl⟩ := Host.listEntries_eq_ok_iff.mp hentries
  obtain ⟨hmem, hdirectory⟩ := List.mem_filter.mp hentry
  obtain ⟨name, node⟩ := entry
  cases node with
  | directory below =>
    exact ⟨hnul, below, Listing.resolve_child hhost (isCollapsed_root hhost).isProper hresolve
      (Node.mem_byName.mp hmem) rfl hpermits⟩
  | file | link | special => simp [Node.isDirectory] at hdirectory

theorem reports_or_fails_child {parser : Parser} (hname : Path.hasNul settings.encoding = false)
    (hencoding : Encoding.ofName? settings.encoding = some .utf8) (hparser : parser.Answers)
    (hroot : host.HasDirectory (Path.absolute host.cwd root)) {excluded : List String}
    {entry : String × Node} (hentry : entry ∈ Listing.subdirectories excluded entries)
    (patterns : List String) :
    let path := (Path.absolute host.cwd root).child entry.1
    if host.Permits path.text then
      Reports host parser settings path.text patterns
        (reportOf host parser path (sources host settings path.text patterns))
    else
      Fails host parser settings path.text patterns := by
  intro path
  have hmem := (List.mem_filter.mp hentry).1
  have habsolute : Path.absolute host.cwd path.text = path := absolute_child hhost hentries hmem
  have hnul : Path.hasNul path.text = false := by
    apply Path.hasNul_text_descend hroot.1
    simpa using (Host.isName_of_mem_listEntries hhost hentries hmem).nul_notMem
  split
  . next hpermits =>
    have hdirectory : host.HasDirectory (Path.absolute host.cwd path.text) := by
      rw [habsolute]
      exact hasDirectory_child hhost hentries hnul hentry hpermits
    have hreports := reports_of_hasDirectory hhost hname hencoding hparser hdirectory patterns
    rw [habsolute] at hreports
    exact hreports
  . next hpermits =>
    obtain ⟨error, hwithholds⟩ := Host.withholds_of_not_permits hnul hpermits
    rw [← habsolute] at hwithholds
    exact fails_of_withholds hwithholds

theorem sources_eq (hplain : settings.followLinks = false)
    (hslash : ∀ pattern ∈ settings.excludePatterns ++ patterns, '/' ∉ pattern.toList) :
    sources host settings root patterns =
      (Listing.ownFiles (settings.excludePatterns ++ patterns) entries).map
          (fun entry => (Path.absolute host.cwd root).child entry.1) ++
        (Listing.subdirectories (settings.excludePatterns ++ patterns) entries).flatMap fun entry =>
          if host.Permits ((Path.absolute host.cwd root).child entry.1).text then
            sources host settings ((Path.absolute host.cwd root).child entry.1).text patterns
          else
            [] := by
  have hexcluded := isExcluded_exclusions settings.excludePatterns patterns
  have hslash : ∀ pattern ∈ Settings.exclusions settings.excludePatterns patterns,
      '/' ∉ pattern.toList := fun pattern h => hslash pattern (Settings.mem_exclusions.mp h).2
  rw [sources]
  rw [Listing.list_directory hhost (isCollapsed_root hhost).isProper hplain hslash hentries]
  rw [Listing.filter_takesFile hexcluded]
  rw [Listing.filter_takesDirectory hexcluded rfl]
  refine congrArg₂ _ rfl (List.flatMap_congr ?_)
  intro entry hentry
  unfold sources
  rw [absolute_child hhost hentries (List.mem_filter.mp hentry).1]
  rfl

end Composition

section Sums

variable {α β : Type} (entries : List α) (p : α → Prop) [DecidablePred p] (f : α → List β)

theorem sum_flatMap_ite {M : Type} [AddCommMonoid M] (g : β → M) :
    ((entries.flatMap fun entry => if p entry then f entry else []).map g).sum =
      ((entries.filter fun entry => p entry).map fun entry => ((f entry).map g).sum).sum := by
  induction entries with
  | nil => rfl
  | cons entry entries ih =>
    rw [List.flatMap_cons]
    rw [List.map_append]
    rw [List.sum_append]
    rw [ih]
    by_cases h : p entry <;> simp [h]

theorem length_flatMap_ite :
    ((entries.flatMap fun entry => if p entry then f entry else []).length : ℤ) =
      ((entries.filter fun entry => p entry).map fun entry => ((f entry).length : ℤ)).sum := by
  simpa using sum_flatMap_ite entries p f fun _ => (1 : ℤ)

end Sums

/--
The report about a directory counts its own files and adds up the reports about the directories in it, each of them
scanned on its own. The only directories without a report have a path that cannot be looked up; they add nothing.
-/
theorem directory_composes (host : Host) (hhost : host.WellFormed) (parser : Parser)
    (hparser : parser.Answers) (settings : Settings) (hplain : settings.followLinks = false)
    (hname : Path.hasNul settings.encoding = false)
    (hencoding : Encoding.ofName? settings.encoding = some .utf8) (root : String)
    (patterns : List String)
    (hslash : ∀ pattern ∈ settings.excludePatterns ++ patterns, '/' ∉ pattern.toList)
    (hroot : host.HasDirectory (Path.absolute host.cwd root)) (entries : List (String × Node))
    (hentries : host.listEntries (Path.absolute host.cwd root) = .ok entries) :
    let path := Path.absolute host.cwd root
    let own := Listing.ownFiles (settings.excludePatterns ++ patterns) entries
    let below := Listing.subdirectories (settings.excludePatterns ++ patterns) entries
    let permitted := below.filter fun entry => host.Permits (path.child entry.1).text
    ∃ (report : Report) (part : String → Report),
      Reports host parser settings root patterns report ∧
      (∀ entry ∈ below,
        if host.Permits (path.child entry.1).text then
          Reports host parser settings (path.child entry.1).text patterns (part entry.1)
        else
          Fails host parser settings (path.child entry.1).text patterns) ∧
      report.files = own.length + (permitted.map fun entry => (part entry.1).files).sum ∧
      report.totals = (own.map fun entry => (host.fate parser (path.child entry.1)).tally).sum +
        (permitted.map fun entry => (part entry.1).totals).sum := by
  intro path own below permitted
  let part (name : String) : Report :=
    reportOf host parser (path.child name) (sources host settings (path.child name).text patterns)
  have hsources := sources_eq hhost hentries hplain hslash
  refine ⟨_, part, reports_of_hasDirectory hhost hname hencoding hparser hroot patterns, ?_, ?_, ?_⟩
  . intro entry hentry
    exact reports_or_fails_child hhost hentries hname hencoding hparser hroot hentry patterns
  . simp only [reportOf]
    rw [hsources]
    rw [List.length_append]
    rw [List.length_map]
    rw [Nat.cast_add]
    rw [length_flatMap_ite]
    rfl
  . simp only [reportOf]
    rw [hsources]
    rw [List.map_append]
    rw [List.sum_append]
    rw [sum_flatMap_ite]
    rw [List.map_map]
    rfl

def nestedHost : Host where
  tree := .directory [("a.ts", .file []), ("b", .directory [("c.ts", .file [])])]
  cwd := []
  denied := []

def oneClassParser : Parser where
  read _ _ := .ok (some (.leaf "class"))
  announces := false

theorem fate_nestedHost :
    (nestedHost.fate oneClassParser { anchor := .root, names := ["a.ts"] }).tally = { classes := 1 } := by
  have hbytes : nestedHost.readBytes { anchor := .root, names := ["a.ts"] } = .ok [] := by
    cbv
  simp only [Host.fate, hbytes]
  cbv

theorem directory_composes_nestedHost :
    nestedHost.WellFormed ∧ oneClassParser.Answers ∧
      ∃ (report : Report) (part : Report),
        Reports nestedHost oneClassParser {} "." ["d"] report ∧
        Reports nestedHost oneClassParser {} "/b" ["d"] part ∧
        report.files = 1 + part.files ∧ report.totals = { classes := 1 } + part.totals := by
  have hhost : nestedHost.WellFormed := by
    refine ⟨?_, ⟨_, rfl⟩⟩
    simp only [nestedHost, Node.WellFormed, Node.WellFormedEntries, and_true, true_and]
    decide
  have hparser : oneClassParser.Answers := fun _ _ => .inl ⟨_, rfl⟩
  have hpath : Path.absolute nestedHost.cwd "." = { anchor := .root, names := [] } := by
    cbv
  have hroot : nestedHost.isDirectory (Path.absolute nestedHost.cwd ".") = .ok true := by
    cbv
  have hentries : nestedHost.listEntries (Path.absolute nestedHost.cwd ".") =
      .ok [("a.ts", .file []), ("b", .directory [("c.ts", .file [])])] := by
    cbv
  obtain ⟨report, part, hreport, hpart, hfiles, htotals⟩ :=
    directory_composes nestedHost hhost oneClassParser hparser {} rfl (by cbv) (by cbv) "." ["d"]
      (by decide) (Host.isDirectory_eq_ok_true_iff.mp hroot) _ hentries
  have hown : Listing.ownFiles ["d"] [("a.ts", .file []), ("b", .directory [("c.ts", .file [])])] =
      [("a.ts", .file [])] := by
    cbv
  have hbelow : Listing.subdirectories ["d"]
      [("a.ts", .file []), ("b", .directory [("c.ts", .file [])])] =
      [("b", .directory [("c.ts", .file [])])] := by
    cbv
  have htext : Path.text { anchor := .root, names := ["b"] } = "/b" := by
    decide
  have hpermits : nestedHost.Permits "/b" := ⟨by decide, rfl⟩
  simp only [List.nil_append, hown, hbelow, hpath, Path.child, htext, hpermits, List.filter_cons, List.filter_nil,
    List.mem_singleton, forall_eq, decide_true, ↓reduceIte] at hpart hfiles htotals
  refine ⟨hhost, hparser, report, part "b", hreport, hpart, ?_, ?_⟩
  . simpa using hfiles
  . simpa [fate_nestedHost] using htotals

section LongPaths

theorem walk_replicate_link {host : Host} {name : String} (hname : Node.IsName name)
    (hchild : host.tree.child? name = some (.link ".")) (links count : Nat) (rest : List String) :
    host.walk (links + count) [] (List.replicate count name ++ rest) = host.walk links [] rest := by
  have hdirectory : host.tree.isDirectory = true := by
    obtain ⟨entries, htree, -⟩ := Node.child?_eq_some hchild
    rw [htree]
    rfl
  have hsteps : Host.stepsOf "." = ["."] := by
    cbv
  induction count with
  | zero => rfl
  | succ count ih =>
    have hdot : ∀ rest, host.walk (links + count) [] ("." :: rest) = host.walk (links + count) [] rest := by
      intro rest
      rw [Host.walk]
      simp [hdirectory]
    rw [← ih]
    rw [← hdot]
    rw [List.replicate_succ]
    rw [List.cons_append]
    rw [Host.walk]
    simp [hdirectory, hname.ne_dot, hname.ne_dots, hname.size_le.not_gt, hchild, hsteps]

theorem isName_repeatedName {length : Nat} (hlength : 2 < length) (hle : length ≤ Host.maxNameBytes) :
    Node.IsName (repeatedName length) := by
  refine ⟨isStep_repeatedName hlength, repeatedName_ne_dots hlength, ?_, ?_⟩
  . intro h
    exact absurd (mem_repeatedName h) (by decide)
  . rw [utf8ByteSize_repeatedName]
    exact hle

theorem utf8ByteSize_intercalate_replicate (count length : Nat) :
    ("/".intercalate (List.replicate (count + 1) (repeatedName length))).utf8ByteSize =
      count * (length + 1) + length := by
  induction count with
  | zero => simp [utf8ByteSize_repeatedName]
  | succ count ih =>
    rw [List.replicate_succ]
    rw [String.intercalate_cons_of_ne_nil (by simp)]
    rw [String.utf8ByteSize_append]
    rw [String.utf8ByteSize_append]
    rw [ih]
    rw [utf8ByteSize_repeatedName]
    have hslash : "/".utf8ByteSize = 1 := by decide
    rw [hslash]
    ring

def windingHost : Host where
  tree := .directory [
    (repeatedName 153, .link "."),
    (repeatedName 255, .directory [("a.ts", .file [])])]
  cwd := []
  denied := []

def windingPath : Path := { anchor := .root, names := List.replicate 25 (repeatedName 153) }

theorem isName_windingHost :
    Node.IsName (repeatedName 153) ∧ Node.IsName (repeatedName 255) :=
  ⟨isName_repeatedName (by decide) (by decide), isName_repeatedName (by decide) (by decide)⟩

theorem repeatedName_ne : repeatedName 153 ≠ repeatedName 255 := by
  intro heq
  have hsize := congrArg String.utf8ByteSize heq
  rw [utf8ByteSize_repeatedName] at hsize
  rw [utf8ByteSize_repeatedName] at hsize
  exact absurd hsize (by decide)

theorem wellFormed_windingHost : windingHost.WellFormed := by
  obtain ⟨hlink, hdirectory⟩ := isName_windingHost
  have hfile : Node.IsName "a.ts" := by decide
  refine ⟨?_, ⟨_, rfl⟩⟩
  simp only [windingHost, Node.WellFormed, Node.WellFormedEntries, List.map_cons, List.map_nil, List.nodup_cons,
    List.mem_singleton, List.not_mem_nil, not_false_eq_true, List.nodup_nil, and_true, true_and]
  exact ⟨repeatedName_ne, hlink, hdirectory, hfile⟩

theorem isCollapsed_windingPath : windingPath.IsCollapsed := by
  have hnames : ∀ name ∈ windingPath.names, name = repeatedName 153 := fun name h =>
    List.eq_of_mem_replicate h
  refine ⟨rfl, ?_, ?_⟩
  . intro name hname
    rw [hnames name hname]
    exact isName_windingHost.1.toIsStep
  . intro name hname
    rw [hnames name hname]
    exact isName_windingHost.1.ne_dots

theorem resolve_windingPath :
    windingHost.resolve windingPath.text = .ok windingHost.tree := by
  have hchild : windingHost.tree.child? (repeatedName 153) = some (.link ".") := by
    simp [windingHost, Node.child?, Node.entries]
  have hwalk := walk_replicate_link isName_windingHost.1 hchild 15 25 []
  rw [List.append_nil] at hwalk
  rw [Host.resolve_eq_ok_iff]
  refine ⟨⟨?_, rfl⟩, [], ?_, rfl⟩
  . rw [Path.text_of_names_ne_nil (by simp [windingPath])]
    rw [String.utf8ByteSize_append]
    simp only [windingPath]
    rw [utf8ByteSize_intercalate_replicate 24]
    decide
  . rw [Host.follow_text isCollapsed_windingPath.isProper (by simp [windingPath])]
    exact hwalk.trans (by rw [Host.walk])

theorem withholds_windingPath :
    windingHost.Withholds (windingPath.child (repeatedName 255)) .nameTooLong := by
  refine ⟨?_, ?_, rfl⟩
  . rw [Path.hasNul_text_eq_false_iff]
    intro name hname
    rcases List.mem_append.mp hname with hname | hname
    . rw [List.eq_of_mem_replicate hname]
      exact isName_windingHost.1.nul_notMem
    . rw [List.mem_singleton.mp hname]
      exact isName_windingHost.2.nul_notMem
  . apply Host.resolve_of_long
    rw [Path.text_of_names_ne_nil (by simp [windingPath, Path.child])]
    rw [String.utf8ByteSize_append]
    simp only [windingPath, Path.child]
    rw [String.intercalate_append_of_ne_nil (by simp) (by simp)]
    rw [String.utf8ByteSize_append]
    rw [String.utf8ByteSize_append]
    rw [utf8ByteSize_intercalate_replicate 24]
    rw [String.intercalate_singleton]
    rw [utf8ByteSize_repeatedName]
    decide

/--
A directory can be reported on although one of the directories in it cannot be scanned on its own, since its path is
too long.
-/
theorem directory_without_part :
    windingHost.WellFormed ∧ rejectingParser.Answers ∧
      windingHost.HasDirectory (Path.absolute windingHost.cwd windingPath.text) ∧
      (∃ report, Reports windingHost rejectingParser {} windingPath.text [] report) ∧
      ∃ entries,
        windingHost.listEntries (Path.absolute windingHost.cwd windingPath.text) = .ok entries ∧
        ∃ entry ∈ Listing.subdirectories [] entries,
          Fails windingHost rejectingParser {} (windingPath.child entry.1).text [] := by
  have hhost := wellFormed_windingHost
  have hparser : rejectingParser.Answers := fun _ _ => .inr ⟨"no", rfl⟩
  have hpath : Path.absolute windingHost.cwd windingPath.text = windingPath :=
    Path.absolute_text isCollapsed_windingPath _
  have hroot : windingHost.HasDirectory (Path.absolute windingHost.cwd windingPath.text) := by
    rw [hpath]
    refine ⟨?_, _, resolve_windingPath⟩
    rw [Path.hasNul_text_eq_false_iff]
    intro name hname
    rw [List.eq_of_mem_replicate hname]
    exact isName_windingHost.1.nul_notMem
  have hentries : windingHost.listEntries (Path.absolute windingHost.cwd windingPath.text) =
      .ok (Node.byName windingHost.tree.entries) := by
    rw [hpath]
    exact Host.listEntries_eq_ok_iff.mpr ⟨rfl, _, resolve_windingPath, rfl⟩
  have hreports := @reports_of_hasDirectory _ hhost _ {} (by cbv) (by cbv) hparser _ hroot []
  have hmem : (repeatedName 255, Node.directory [("a.ts", .file [])]) ∈
      Node.byName windingHost.tree.entries :=
    Node.mem_byName.mpr (by simp [windingHost, Node.entries])
  have hskipped : repeatedName 255 ∉ skippedDirectories := by
    intro hmem
    have hall : ∀ name ∈ skippedDirectories, name.utf8ByteSize < 255 := by decide
    exact ne_of_utf8ByteSize_lt (hall _ hmem) rfl
  have hbelow : (repeatedName 255, Node.directory [("a.ts", .file [])]) ∈
      Listing.subdirectories [] (Node.byName windingHost.tree.entries) :=
    List.mem_filter.mpr ⟨hmem, by simp [Node.isDirectory, hskipped, ContainsPattern]⟩
  refine ⟨hhost, hparser, hroot, ⟨_, hreports⟩, _, hentries, _, hbelow, ?_⟩
  apply @fails_of_withholds _ _ _ _ _ .nameTooLong
  have hchild := absolute_child hhost hentries hmem
  rw [hpath] at hchild
  rw [hchild]
  exact withholds_windingPath

end LongPaths

end Scan

end ParadigmScan
