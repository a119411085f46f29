import ParadigmScan.Proofs.FileTree.Absolute
import ParadigmScan.Proofs.Listing.Visible
import ParadigmScan.Proofs.Scan.Composition

/-!
This module contains that what is left out of a scan makes no difference to it: two hosts in which the scanned directory
looks the same apart from that give the same report or failure, the same calls of the parser and the same log.
-/

namespace ParadigmScan

namespace Host

def refusal? (host : Host) (path : Path) : Option FileError :=
  if host.isDenied path then some .denied
  else if maxPathBytes ≤ path.text.utf8ByteSize then some .nameTooLong
  else if host.bars path.text then some .denied
  else none

section Descent

variable {host : Host} (hhost : host.WellFormed) {top : Path} (htop : top.IsProper) {root : Node}
  (hroot : host.resolve top.text = .ok root) {names : List String}

include hhost htop hroot

theorem resolve_of_descend? {node : Node} (hnode : root.descend? names = some node)
    (hlink : node.isLink = false) :
    host.resolve (top.descend names).text =
      if maxPathBytes ≤ (top.descend names).text.utf8ByteSize then .error .nameTooLong
      else if host.bars (top.descend names).text then .error .denied
      else .ok node := by
  split
  . next hlong => exact resolve_of_long hlong
  . next hlong =>
    split
    . next hbars =>
      unfold resolve locate find
      rw [if_neg hlong]
      rw [if_pos hbars]
      rfl
    . next hbars =>
      apply resolve_descend hhost htop hroot hnode hlink
      exact ⟨Nat.not_le.mp hlong, by simpa using hbars⟩

theorem listEntries_of_descend? {entries : List (String × Node)}
    (hnode : root.descend? names = some (.directory entries)) :
    host.listEntries (top.descend names) =
      match host.refusal? (top.descend names) with
      | some error => .error error
      | none => .ok (Node.byName entries) := by
  unfold listEntries refusal?
  rw [resolve_of_descend? hhost htop hroot hnode rfl]
  cases host.isDenied (top.descend names) with
  | true => rfl
  | false =>
    simp only [Bool.false_eq_true, ↓reduceIte]
    split
    . rfl
    . split <;> rfl

theorem readBytes_of_descend? {bytes : List UInt8}
    (hnode : root.descend? names = some (.file bytes)) :
    host.readBytes (top.descend names) =
      match host.refusal? (top.descend names) with
      | some error => .error error
      | none => .ok bytes := by
  unfold readBytes refusal?
  rw [resolve_of_descend? hhost htop hroot hnode rfl]
  cases host.isDenied (top.descend names) with
  | true => rfl
  | false =>
    simp only [Bool.false_eq_true, ↓reduceIte]
    split
    . rfl
    . split <;> rfl

end Descent

/--
The two hosts agree on what the path leads to, apart from what is left out below it, and on what may be opened and
looked up of the rest. They run on the same platform.
-/
structure Agree (patterns : List String) (top : Path) (host host' : Host) : Prop where
  cwd_eq : host.cwd = host'.cwd
  visible_eq : (host.resolve top.text).map (Listing.visible patterns []) =
    (host'.resolve top.text).map (Listing.visible patterns [])
  isDenied_eq : ∀ root names, host.resolve top.text = .ok root →
    (Listing.visible patterns [] root).descend? names ≠ none →
      host.isDenied (top.descend names) = host'.isDenied (top.descend names)
  bars_eq : ∀ root names, host.resolve top.text = .ok root →
    (Listing.visible patterns [] root).descend? names ≠ none →
      host.bars (top.descend names).text = host'.bars (top.descend names).text
  platform_eq : host.platform = host'.platform

end Host

namespace Listing

open Node (byName mem_byName)

def refusalRecord (path : Path) (error : FileError) : Log.Record :=
  Log.debug "scanning.walker" s!"Skipping unreadable directory {path.text}: {error.message path.text}"

section Visible

variable {host : Host} (hhost : host.WellFormed) {top : Path} (htop : top.IsProper) {root : Node}
  (hroot : host.resolve top.text = .ok root) {patterns names : List String}

include hhost htop hroot

theorem listEntries_of_visible {shown : List (String × Node)}
    (hnode : (visible patterns [] root).descend? names = some (.directory shown)) :
    ∃ entries, shown = visibleEntries patterns names entries ∧
      root.descend? names = some (.directory entries) ∧
      host.listEntries (top.descend names) =
        match host.refusal? (top.descend names) with
        | some error => .error error
        | none => .ok (byName entries) := by
  obtain ⟨below, hbelow, hshown⟩ := descend?_of_visible (wellFormed_of_resolve hhost hroot) hnode
  obtain ⟨entries, rfl, rfl⟩ := visible_eq_directory _ _ hshown
  exact ⟨entries, rfl, hbelow, Host.listEntries_of_descend? hhost htop hroot hbelow⟩

theorem readBytes_of_visible {bytes : List UInt8}
    (hnode : (visible patterns [] root).descend? names = some (.file bytes)) :
    host.readBytes (top.descend names) =
      match host.refusal? (top.descend names) with
      | some error => .error error
      | none => .ok bytes := by
  obtain ⟨below, hbelow, hshown⟩ := descend?_of_visible (wellFormed_of_resolve hhost hroot) hnode
  rw [visible_eq_file_iff] at hshown
  subst hshown
  exact Host.readBytes_of_descend? hhost htop hroot hbelow

theorem listable_of_visible {shown : List (String × Node)}
    (hnode : (visible patterns [] root).descend? names = some (.directory shown)) :
    listable host top names = (host.refusal? (top.descend names)).isNone := by
  obtain ⟨entries, -, -, hentries⟩ := listEntries_of_visible hhost htop hroot hnode
  unfold listable
  rw [hentries]
  cases host.refusal? (top.descend names) <;> rfl

theorem refusalIn_of_visible {shown : List (String × Node)}
    (hnode : (visible patterns [] root).descend? names = some (.directory shown)) :
    refusalIn host top names =
      (host.refusal? (top.descend names)).toList.map (refusalRecord (top.descend names)) := by
  obtain ⟨entries, -, -, hentries⟩ := listEntries_of_visible hhost htop hroot hnode
  unfold refusalIn
  rw [hentries]
  cases host.refusal? (top.descend names) <;> rfl

theorem filesIn_of_visible {options : Options} (hplain : options.followLinks = false)
    (hpatterns : isExcluded options.patterns = isExcluded patterns) {shown : List (String × Node)}
    (hnode : (visible patterns [] root).descend? names = some (.directory shown)) :
    filesIn host options top names =
      if (host.refusal? (top.descend names)).isNone then
        (shown.filter (takesFile options names)).map (names ++ [·.1])
      else
        [] := by
  obtain ⟨entries, rfl, hdirectory, -⟩ := listEntries_of_visible hhost htop hroot hnode
  have hlistable := listable_of_visible hhost htop hroot hnode
  rw [← topNode_eq hroot] at hdirectory
  split
  . next hopen =>
    rw [filesIn_plain hhost htop hplain hdirectory (hlistable.trans hopen)]
    unfold takesFile
    rw [filter_takes_visibleEntries fun entry => not_isLeftOut_of_takesFile hpatterns]
    rw [List.map_map]
    rfl
  . next hclosed =>
    rw [Bool.not_eq_true] at hclosed
    exact foundIn_of_not_listable (hlistable.trans hclosed) _ _

variable {options : Options} (hplain : options.followLinks = false)
  (hpatterns : isExcluded options.patterns = isExcluded patterns)
  (hskipped : options.skipped = skippedDirectories)

include hplain hpatterns hskipped

theorem visible_of_mem_tour (hdirectory : root.isDirectory = true)
    (h : names ∈ tour host options top) :
    ∃ shown, (visible patterns [] root).descend? names = some (.directory shown) := by
  rw [tour_eq_visits hhost htop hplain] at h
  rw [topNode_eq hroot] at h
  rw [← visits_visible hpatterns hskipped] at h
  obtain ⟨path, rfl, hpath⟩ := mem_visits (wellFormed_visible (wellFormed_of_resolve hhost hroot)) h
  rcases hpath with rfl | hpath
  . cases root with
    | directory entries => exact ⟨_, congrArg some (visible_directory patterns [] entries)⟩
    | file | link | special => simp [Node.isDirectory] at hdirectory
  . simpa using hpath

theorem visible_of_mem_list (hdirectory : root.isDirectory = true) {path : Path}
    (h : path ∈ (list host options top).1) :
    ∃ names bytes, path = top.descend names ∧
      (visible patterns [] root).descend? names = some (.file bytes) := by
  rw [list_eq] at h
  obtain ⟨file, hfile, rfl⟩ := List.mem_map.mp h
  obtain ⟨names, hnames, hfile⟩ := List.mem_flatMap.mp hfile
  obtain ⟨shown, hshown⟩ :=
    visible_of_mem_tour hhost htop hroot hplain hpatterns hskipped hdirectory hnames
  rw [filesIn_of_visible hhost htop hroot hplain hpatterns hshown] at hfile
  split at hfile
  . obtain ⟨entry, hentry, rfl⟩ := List.mem_map.mp hfile
    obtain ⟨hmem, htakes⟩ := List.mem_filter.mp hentry
    obtain ⟨bytes, hbytes, -⟩ := takesFile_iff.mp htakes
    have hwellFormed := @wellFormed_visible patterns [] root (wellFormed_of_resolve hhost hroot)
    have hnode := hwellFormed.descend?_concat_of_mem hshown hmem
    rw [hbytes] at hnode
    exact ⟨_, bytes, rfl, hnode⟩
  . simp at hfile

end Visible

section Agreement

variable {host host' : Host} (hhost : host.WellFormed) (hhost' : host'.WellFormed) {top : Path}
  (htop : top.IsProper) {patterns : List String} (hagree : Host.Agree patterns top host host')

include hagree in
theorem Agree.exists_root {root : Node} (hroot : host.resolve top.text = .ok root) :
    ∃ root', host'.resolve top.text = .ok root' ∧
      visible patterns [] root' = visible patterns [] root := by
  have heq := hagree.visible_eq
  rw [hroot] at heq
  cases hroot' : host'.resolve top.text with
  | error error =>
    rw [hroot'] at heq
    cases heq
  | ok root' =>
    rw [hroot'] at heq
    exact ⟨root', rfl, (Except.ok.inj heq).symm⟩

include hagree in
theorem Agree.refusal?_eq {root : Node} (hroot : host.resolve top.text = .ok root)
    {names : List String} {node : Node}
    (hnode : (visible patterns [] root).descend? names = some node) :
    host.refusal? (top.descend names) = host'.refusal? (top.descend names) := by
  unfold Host.refusal?
  rw [hagree.isDenied_eq root names hroot (by simp [hnode])]
  rw [hagree.bars_eq root names hroot (by simp [hnode])]

variable {options : Options} (hplain : options.followLinks = false)
  (hpatterns : isExcluded options.patterns = isExcluded patterns)
  (hskipped : options.skipped = skippedDirectories)

include hhost hhost' htop hagree hplain hpatterns hskipped

theorem Agree.tour_eq {root : Node} (hroot : host.resolve top.text = .ok root) :
    tour host options top = tour host' options top := by
  obtain ⟨root', hroot', hvisible⟩ := Agree.exists_root hagree hroot
  rw [tour_eq_visits hhost htop hplain]
  rw [tour_eq_visits hhost' htop hplain]
  rw [topNode_eq hroot]
  rw [topNode_eq hroot']
  rw [← visits_visible hpatterns hskipped]
  rw [← visits_visible hpatterns hskipped _ [] root']
  rw [hvisible]
  apply visits_congr (wellFormed_visible (wellFormed_of_resolve hhost hroot))
  intro names shown hshown
  rw [List.nil_append]
  rw [listable_of_visible hhost htop hroot hshown]
  rw [Agree.refusal?_eq hagree hroot hshown]
  rw [← hvisible] at hshown
  rw [listable_of_visible hhost' htop hroot' hshown]

theorem Agree.list_eq {root : Node} (hroot : host.resolve top.text = .ok root)
    (hdirectory : root.isDirectory = true) : list host options top = list host' options top := by
  obtain ⟨root', hroot', hvisible⟩ := Agree.exists_root hagree hroot
  have hshown := fun {names} => @visible_of_mem_tour host hhost top htop root hroot patterns names
    options hplain hpatterns hskipped hdirectory
  rw [Listing.list_eq]
  rw [Listing.list_eq]
  rw [← Agree.tour_eq hhost hhost' htop hagree hplain hpatterns hskipped hroot]
  congr 1
  . congr 1
    apply List.flatMap_congr
    intro names hnames
    obtain ⟨shown, hshown⟩ := hshown hnames
    rw [filesIn_of_visible hhost htop hroot hplain hpatterns hshown]
    rw [Agree.refusal?_eq hagree hroot hshown]
    rw [← hvisible] at hshown
    rw [filesIn_of_visible hhost' htop hroot' hplain hpatterns hshown]
  . apply List.flatMap_congr
    intro names hnames
    obtain ⟨shown, hshown⟩ := hshown hnames
    rw [refusalIn_of_visible hhost htop hroot hshown]
    rw [Agree.refusal?_eq hagree hroot hshown]
    rw [← hvisible] at hshown
    rw [refusalIn_of_visible hhost' htop hroot' hshown]

theorem Agree.readBytes_eq {root : Node} (hroot : host.resolve top.text = .ok root)
    (hdirectory : root.isDirectory = true) {path : Path} (h : path ∈ (list host options top).1) :
    host.readBytes path = host'.readBytes path := by
  obtain ⟨root', hroot', hvisible⟩ := Agree.exists_root hagree hroot
  obtain ⟨names, bytes, rfl, hnode⟩ :=
    visible_of_mem_list hhost htop hroot hplain hpatterns hskipped hdirectory h
  rw [readBytes_of_visible hhost htop hroot hnode]
  rw [Agree.refusal?_eq hagree hroot hnode]
  rw [← hvisible] at hnode
  rw [readBytes_of_visible hhost' htop hroot' hnode]

end Agreement

end Listing

namespace Scan

theorem tally_congr {host host' : Host} (hplatform : host.platform = host'.platform) {path : Path}
    (h : host.readBytes path = host'.readBytes path) (session : ParserSession) (encodingName : String) :
    SourceFile.tally host session encodingName path =
      SourceFile.tally host' session encodingName path := by
  unfold SourceFile.tally SourceFile.load SourceFile.readText
  rw [h]
  rw [hplatform]

theorem tallies_congr {host host' : Host} (hplatform : host.platform = host'.platform)
    {paths : List Path} (h : ∀ path ∈ paths, host.readBytes path = host'.readBytes path) (session : ParserSession)
    (encodingName : String) :
    tallies host session encodingName paths = tallies host' session encodingName paths := by
  induction paths with
  | nil => rfl
  | cons path paths ih =>
    rw [List.forall_mem_cons] at h
    unfold tallies
    rw [tally_congr hplatform h.1]
    rw [ih h.2]

theorem isDirectory_eq {host host' : Host} {patterns : List String} {top : Path}
    (hagree : Host.Agree patterns top host host') : host.isDirectory top = host'.isDirectory top := by
  have heq := hagree.visible_eq
  unfold Host.isDirectory Host.check
  cases hroot : host.resolve top.text with
  | error error =>
    cases hroot' : host'.resolve top.text with
    | error error' =>
      rw [hroot] at heq
      rw [hroot'] at heq
      rw [Except.error.inj heq]
    | ok root' =>
      rw [hroot] at heq
      rw [hroot'] at heq
      cases heq
  | ok root =>
    obtain ⟨root', hroot', hvisible⟩ := Listing.Agree.exists_root hagree hroot
    have hdirectory : root.isDirectory = root'.isDirectory := by
      rw [← Listing.isDirectory_visible patterns [] root]
      rw [← Listing.isDirectory_visible patterns [] root']
      rw [hvisible]
    rw [hroot']
    simp only [hdirectory]

/--
What is left out of a scan makes no difference to it. The outcome is the same as on any other host on which the
directory is the same apart from that: the report or the failure, and with the trace the calls of the parser, the
records of the log and the number of files that was told.
-/
theorem directory_ignores_left_out (host host' : Host) (hhost : host.WellFormed)
    (hhost' : host'.WellFormed) (session : ParserSession) (settings : Settings)
    (hplain : settings.followLinks = false) (root : String) (patterns : List String)
    (hagree : Host.Agree (settings.excludePatterns ++ patterns) (Path.absolute host.cwd root) host host')
    (start : Trace) :
    (directory host session settings root patterns).outcome start =
      (directory host' session settings root patterns).outcome start := by
  have htop := (@isCollapsed_root host root hhost).isProper
  have hexcluded := isExcluded_exclusions settings.excludePatterns patterns
  congr 1
  simp only [directory]
  rw [← hagree.cwd_eq]
  rw [← isDirectory_eq hagree]
  cases hdirectory : host.isDirectory (Path.absolute host.cwd root) with
  | error error => rfl
  | ok found =>
    cases found with
    | false => rfl
    | true =>
      obtain ⟨-, entries, hroot⟩ := Host.isDirectory_eq_ok_true_iff.mp hdirectory
      let options : Listing.Options := {
        patterns := Settings.exclusions settings.excludePatterns patterns
        followLinks := settings.followLinks }
      have hlist := @Listing.Agree.list_eq host host' hhost hhost' _ htop _ hagree options hplain
        hexcluded rfl _ hroot rfl
      have hbytes := fun path => @Listing.Agree.readBytes_eq host host' hhost hhost' _ htop _ hagree
        options hplain hexcluded rfl _ hroot rfl path
      simp only [options] at hlist hbytes
      simp only [← hlist, tallies_congr hagree.platform_eq hbytes]

def crowdedHost : Host where
  tree := .directory [
    ("a.d.ts", .file []),
    ("a.ts", .file [97]),
    ("l.ts", .link "a.ts"),
    ("out", .directory [("b.ts", .file [])]),
    ("p.ts", .special),
    ("r.md", .file []),
    ("x.ts", .file [])]
  cwd := []
  denied := []

theorem wellFormed_crowdedHost : crowdedHost.WellFormed := by
  refine ⟨?_, ⟨_, rfl⟩⟩
  simp only [crowdedHost, Node.WellFormed, Node.WellFormedEntries, and_true, true_and]
  decide

theorem visibleEntries_of_sorted {patterns names : List String} {entries : List (String × Node)}
    (hsorted : (entries.map (·.1)).Pairwise (· ≤ ·)) {shown : String}
    (hshown : ∀ entry ∈ entries, (!Listing.isLeftOut patterns names entry) = (entry.1 == shown)) :
    Listing.visibleEntries patterns names entries =
      (entries.filter (·.1 == shown)).map fun entry =>
        (entry.1, Listing.visible patterns (names ++ [entry.1]) entry.2) := by
  have hbyName : Node.byName entries = entries := by
    apply List.mergeSort_of_pairwise
    rw [List.pairwise_map] at hsorted
    simpa using hsorted
  unfold Listing.visibleEntries
  rw [hbyName]
  rw [List.filter_congr hshown]

theorem visible_crowdedHost :
    Listing.visible ["x"] [] crowdedHost.tree = .directory [("a.ts", .file [97])] := by
  simp only [crowdedHost]
  rw [Listing.visible_directory]
  rw [@visibleEntries_of_sorted _ _ _ (by decide +kernel) "a.ts" (by decide +kernel)]
  simp [Listing.visible]

theorem visible_sourceHost :
    Listing.visible ["x"] [] (sourceHost [97]).tree = .directory [("a.ts", .file [97])] := by
  simp only [sourceHost]
  rw [Listing.visible_directory]
  rw [@visibleEntries_of_sorted _ _ _ (by decide +kernel) "a.ts" (by decide +kernel)]
  simp [Listing.visible]

theorem agree_crowdedHost :
    Host.Agree ["x"] (Path.absolute crowdedHost.cwd ".") crowdedHost (sourceHost [97]) := by
  refine ⟨rfl, ?_, fun _ _ _ _ => rfl, fun _ _ _ _ => rfl, rfl⟩
  have hcrowded : crowdedHost.resolve (Path.absolute crowdedHost.cwd ".").text =
      .ok crowdedHost.tree := by
    cbv
  have hsource : (sourceHost [97]).resolve (Path.absolute crowdedHost.cwd ".").text =
      .ok (sourceHost [97]).tree := by
    cbv
  rw [hcrowded]
  rw [hsource]
  simp only [Except.map]
  rw [visible_crowdedHost]
  rw [visible_sourceHost]

theorem directory_ignores_left_out_crowdedHost :
    crowdedHost.WellFormed ∧ (sourceHost [97]).WellFormed ∧
      Host.Agree ["x"] (Path.absolute crowdedHost.cwd ".") crowdedHost (sourceHost [97]) ∧
      (directory crowdedHost rejectingParser {} "." ["x"]).outcome {} =
        (directory (sourceHost [97]) rejectingParser {} "." ["x"]).outcome {} :=
  ⟨wellFormed_crowdedHost, wellFormed_sourceHost [97], agree_crowdedHost,
    directory_ignores_left_out crowdedHost (sourceHost [97]) wellFormed_crowdedHost
      (wellFormed_sourceHost [97]) rejectingParser {} rfl "." ["x"] agree_crowdedHost {}⟩

end Scan

end ParadigmScan
