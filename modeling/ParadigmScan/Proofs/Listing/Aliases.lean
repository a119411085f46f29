import ParadigmScan.Proofs.FileTree.Directories
import ParadigmScan.Proofs.Listing.Selection

/-!
This module contains listings that follow links. A directory can then be reached under several names, but it
is entered under the first of them only, so that the patterns are compared with paths that are not those of a
listing without links.
-/

namespace ParadigmScan

namespace Listing

variable {host : Host} {options : Options} {top : Path}

theorem entryKind_of_not_link {node : Node} (path : Path)
    (hlink : node.isLink = false) :
    entryKind host options path node = .ofNode node := by
  cases node with
  | link target => simp [Node.isLink] at hlink
  | file | directory | special => rfl

theorem realPlace_of_follow {path : Path} {location : Location}
    (h : host.follow path.text = .ok (.node location)) :
    realPlace host path = location.map (·.1) := by
  unfold realPlace
  rw [h]

theorem realPlace_child (hhost : host.WellFormed) {path : Path} (hpath : path.IsProper)
    {location : Location} (h : host.follow path.text = .ok (.node location)) {name : String}
    {child : Node} (hchild : (host.nodeAt location).child? name = some child)
    (hlink : child.isLink = false) :
    realPlace host (path.descend [name]) = name :: realPlace host path := by
  rw [realPlace_of_follow (Host.follow_child hhost hpath h hchild hlink)]
  rw [realPlace_of_follow h]
  rfl

theorem length_directoriesIn_add_le (hhost : host.WellFormed) {names : List String}
    {entered : List (List String)} (hplace : realPlace host (top.descend names) ∉ entered) :
    (directoriesIn host options top names).length +
        host.tree.entriesLeft (realPlace host (top.descend names) :: entered) ≤
      host.tree.entriesLeft entered := by
  unfold directoriesIn foundIn
  cases hfound : host.listEntries (top.descend names) with
  | error error =>
    have := host.tree.entriesLeft_cons_le (realPlace host (top.descend names)) entered
    simpa using this
  | ok found =>
    obtain ⟨location, entries, hfollow, hat, rfl⟩ := Host.exists_of_listEntries hfound
    have hdescend := (Host.isLocation_follow hhost hfollow).descend?
    rw [hat] at hdescend
    have hmem := Node.mem_directories hdescend
    rw [realPlace_of_follow hfollow] at hplace ⊢
    rw [← List.reverse_reverse (location.map (·.1))] at hplace ⊢
    have hleft := Node.add_entriesLeft_cons_le hmem hplace
    have hlength : (admitted host options top names .directory (!options.skipped.contains ·)
        (Node.byName entries)).length ≤ entries.length := by
      unfold admitted
      rw [List.length_map]
      rw [← (Node.byName_perm entries).length_eq]
      apply List.length_filter_le
    simp only
    omega

theorem exists_listEntries_of_records_eq_nil (hrecords : (list host options top).2 = [])
    {names : List String} (h : names ∈ tour host options top) :
    ∃ found, host.listEntries (top.descend names) = .ok found := by
  rw [list_eq] at hrecords
  have hrefusal := List.flatMap_eq_nil_iff.mp hrecords names h
  unfold refusalIn at hrefusal
  cases hfound : host.listEntries (top.descend names) with
  | error error => simp [hfound] at hrefusal
  | ok found => exact ⟨found, rfl⟩

section Links

variable (hhost : host.WellFormed) (hlinks : options.followLinks = true)

include hlinks

theorem trail_cons_of_mem (fuel : Nat) {names : List String} (pending : List (List String))
    {entered : List (List String)} (h : realPlace host (top.descend names) ∈ entered) :
    trail host options top (fuel + 1) (names :: pending) entered =
      trail host options top fuel pending entered := by
  simp [trail, hlinks, h]

theorem trail_cons_of_notMem (fuel : Nat) {names : List String} (pending : List (List String))
    {entered : List (List String)} (h : realPlace host (top.descend names) ∉ entered) :
    trail host options top (fuel + 1) (names :: pending) entered =
      names :: trail host options top fuel (directoriesIn host options top names ++ pending)
        (realPlace host (top.descend names) :: entered) := by
  simp [trail, hlinks, h]

include hhost

theorem trail_closed {fuel : Nat} {pending entered : List (List String)}
    (hfuel : pending.length + host.tree.entriesLeft entered ≤ fuel) {names : List String}
    (h : names ∈ pending ∨ ∃ other ∈ trail host options top fuel pending entered,
      names ∈ directoriesIn host options top other) :
    realPlace host (top.descend names) ∈ entered ∨
      ∃ other ∈ trail host options top fuel pending entered,
        realPlace host (top.descend other) = realPlace host (top.descend names) := by
  -- Each step takes one directory from the pending ones. It adds no more than the entries of a directory
  -- that was not entered before, so the two together never exceed the steps that are left.
  induction fuel generalizing pending entered with
  | zero =>
    have : pending = [] := List.eq_nil_of_length_eq_zero (by omega)
    simp [this, trail] at h
  | succ fuel ih =>
    cases pending with
    | nil => simp [trail] at h
    | cons next pending =>
      rw [List.length_cons] at hfuel
      by_cases hentered : realPlace host (top.descend next) ∈ entered
      . rw [trail_cons_of_mem hlinks fuel pending hentered] at h ⊢
        rw [List.mem_cons] at h
        rcases h with (rfl | hpending) | hfound
        . exact Or.inl hentered
        . exact ih (by omega) (Or.inl hpending)
        . exact ih (by omega) (Or.inr hfound)
      . rw [trail_cons_of_notMem hlinks fuel pending hentered] at h ⊢
        have hleft : (directoriesIn host options top next).length + _ ≤ _ :=
          length_directoriesIn_add_le hhost hentered
        have hlength : (directoriesIn host options top next ++ pending).length +
            host.tree.entriesLeft (realPlace host (top.descend next) :: entered) ≤ fuel := by
          rw [List.length_append]
          omega
        by_cases hnext : realPlace host (top.descend next) = realPlace host (top.descend names)
        . exact Or.inr ⟨next, by simp, hnext⟩
        . have hfound : names ∈ directoriesIn host options top next ++ pending ∨
              ∃ other ∈ trail host options top fuel (directoriesIn host options top next ++ pending)
                (realPlace host (top.descend next) :: entered),
                names ∈ directoriesIn host options top other := by
            rw [List.mem_append]
            rw [List.mem_cons] at h
            rcases h with (rfl | hpending) | ⟨other, hother, hfound⟩
            . exact absurd rfl hnext
            . exact Or.inl (Or.inr hpending)
            . rcases List.mem_cons.mp hother with rfl | hother
              . exact Or.inl (Or.inl hfound)
              . exact Or.inr ⟨other, hother, hfound⟩
          rcases ih hlength hfound with hplace | ⟨other, hother, hplace⟩
          . exact Or.inl ((List.mem_cons.mp hplace).resolve_left (Ne.symm hnext))
          . exact Or.inr ⟨other, by simp [hother], hplace⟩

theorem tour_closed {names : List String}
    (h : names = [] ∨ ∃ other ∈ tour host options top, names ∈ directoriesIn host options top other) :
    ∃ other ∈ tour host options top,
      realPlace host (top.descend other) = realPlace host (top.descend names) := by
  have hsize := host.tree.size_eq_entriesLeft_nil
  have hfuel : [([] : List String)].length + host.tree.entriesLeft [] ≤ host.tree.size + 1 := by
    rw [List.length_singleton]
    omega
  have hclosed := @trail_closed _ _ top hhost hlinks _ _ _ hfuel names (by simpa [tour] using h)
  simpa [tour] using hclosed

end Links

section Names

variable (hhost : host.WellFormed) (htop : top.IsProper)

include hhost htop

theorem follow_of_descend?_topNode {before : List String} {entries : List (String × Node)}
    (hbefore : (topNode host top).descend? before = some (.directory entries)) :
    ∃ location, host.follow (top.descend before).text = .ok (.node location) ∧
      host.nodeAt location = .directory entries := by
  have hresolve := resolve_of_descend?_topNode hbefore
  obtain ⟨-, start, hstart, hat⟩ := Host.resolve_eq_ok_iff.mp hresolve
  rw [← hat] at hbefore
  obtain ⟨location, hfollow, hat, -⟩ := Host.follow_descend_real hhost htop hstart hbefore rfl
  exact ⟨location, hfollow, hat⟩

theorem listEntries_of_realPlace_eq {before other : List String} {entries found : List (String × Node)}
    (hbefore : (topNode host top).descend? before = some (.directory entries))
    (hplace : realPlace host (top.descend other) = realPlace host (top.descend before))
    (hfound : host.listEntries (top.descend other) = .ok found) : found = Node.byName entries := by
  obtain ⟨location, hfollow, hat⟩ := follow_of_descend?_topNode hhost htop hbefore
  obtain ⟨location', entries', hfollow', hat', rfl⟩ := Host.exists_of_listEntries hfound
  rw [realPlace_of_follow hfollow] at hplace
  rw [realPlace_of_follow hfollow'] at hplace
  -- A location is known by its names, since no directory has two entries of one name.
  have heq : location' = location :=
    (Host.isLocation_follow hhost hfollow').ext (Host.isLocation_follow hhost hfollow) hplace
  subst heq
  rw [hat] at hat'
  simp only [Node.directory.injEq] at hat'
  rw [hat']

theorem realPlace_concat_of_descend? {before : List String} {name : String} {child : Node}
    (h : (topNode host top).descend? (before ++ [name]) = some child) (hlink : child.isLink = false) :
    realPlace host (top.descend (before ++ [name])) = name :: realPlace host (top.descend before) := by
  obtain ⟨entries, hbefore, hmem⟩ := Node.exists_of_descend?_concat h
  obtain ⟨location, hfollow, hat⟩ := follow_of_descend?_topNode hhost htop hbefore
  have hwellFormed := (wellFormed_topNode hhost).descend hbefore
  rw [← Path.descend_descend]
  apply realPlace_child hhost (htop.descend fun name h => (hwellFormed.1 name h).toIsStep) hfollow _
    hlink
  rw [hat]
  exact hwellFormed.2.child?_eq_some_iff.mpr hmem

theorem realPlace_concat_of_mem_tour {other : List String} (hother : other ∈ tour host options top)
    {found : List (String × Node)} (hfound : host.listEntries (top.descend other) = .ok found)
    {name : String} {child : Node} (hmem : (name, child) ∈ found) (hlink : child.isLink = false) :
    realPlace host (top.descend (other ++ [name])) = name :: realPlace host (top.descend other) := by
  have hnames := (isName_and_clean_of_mem_tour hhost hother).1
  obtain ⟨location, entries, hfollow, hat, rfl⟩ := Host.exists_of_listEntries hfound
  have hwellFormed := (Host.isLocation_follow hhost hfollow).wellFormed hhost
  rw [← Path.descend_descend]
  apply realPlace_child hhost (htop.descend fun name h => (hnames name h).toIsStep) hfollow _ hlink
  rw [hat] at hwellFormed ⊢
  exact hwellFormed.child?_eq_some_iff.mpr (Node.mem_byName.mp hmem)

end Names

/--
A directory on the way to `path` is entered under another name, and under this name the way behind it is
excluded.
-/
def IsHidden (host : Host) (options : Options) (top : Path) (path : List String) : Prop :=
  ∃ before name behind other, path = before ++ name :: behind ∧
    other ∈ tour host options top ∧ other ≠ before ∧
    realPlace host (top.descend other) = realPlace host (top.descend before) ∧
    isExcluded options.patterns (relativeText (other ++ [name])) = true

theorem isHidden_of_excluded {path before behind other : List String} {name : String}
    (hclean : isExcluded options.patterns (relativeText path) = false)
    (hpath : path = before ++ name :: behind) (hother : other ∈ tour host options top)
    (hplace : realPlace host (top.descend other) = realPlace host (top.descend before))
    (hexcluded : isExcluded options.patterns (relativeText (other ++ [name])) = true) :
    IsHidden host options top path := by
  refine ⟨before, name, behind, other, hpath, hother, ?_, hplace, hexcluded⟩
  rintro rfl
  rw [hpath] at hclean
  rw [List.append_cons] at hclean
  rw [isExcluded_relativeText_append hclean] at hexcluded
  contradiction

theorem not_isHidden_of_slash_notMem (hhost : host.WellFormed)
    (hslash : ∀ pattern ∈ options.patterns, '/' ∉ pattern.toList) {path : List String}
    (hclean : isExcluded options.patterns (relativeText path) = false) :
    ¬ IsHidden host options top path := by
  rintro ⟨before, name, behind, other, rfl, hother, -, -, hexcluded⟩
  have hother := (isName_and_clean_of_mem_tour hhost hother).2
  rw [Bool.eq_false_iff] at hclean hother
  rw [ne_eq, isExcluded_relativeText_iff hslash] at hclean hother
  obtain ⟨part, hmem, hpart⟩ := (isExcluded_relativeText_iff hslash _).mp hexcluded
  rcases List.mem_append.mp hmem with hmem | hmem
  . exact hother ⟨part, hmem, hpart⟩
  . rw [List.mem_singleton] at hmem
    subst hmem
    exact hclean ⟨part, by simp, hpart⟩

/--
A link that is listed as a file leads to where `path` leads.
-/
def IsLinked (host : Host) (options : Options) (top : Path) (path : List String) : Prop :=
  ∃ other ∈ tour host options top, ∃ found name target,
    host.listEntries (top.descend other) = .ok found ∧ (name, Node.link target) ∈ found ∧
    entryKind host options (top.descend (other ++ [name])) (.link target) = .file ∧
    isSourceFile name = true ∧ isExcluded options.patterns (relativeText (other ++ [name])) = false ∧
    realPlace host (top.descend (other ++ [name])) = realPlace host (top.descend path)

theorem mem_files_list {names : List String} :
    top.descend names ∈ (list host options top).1 ↔
      ∃ other ∈ tour host options top, names ∈ filesIn host options top other := by
  rw [list_eq]
  rw [List.mem_map_of_injective (Path.descend_injective top)]
  rw [List.mem_flatMap]

section Kept

variable (hhost : host.WellFormed) (htop : top.IsProper) (hlinks : options.followLinks = true)
  (hrecords : (list host options top).2 = []) {path : List String}
  (hlisted : IsListed { options with followLinks := false } (listable host top) []
    (topNode host top) path)

include hhost htop hlinks hrecords hlisted

theorem exists_entered_or_isHidden {before behind : List String} (hpath : path = before ++ behind)
    (hne : behind ≠ []) :
    (∃ other ∈ tour host options top,
      realPlace host (top.descend other) = realPlace host (top.descend before)) ∨
      IsHidden host options top path := by
  -- From the top down: the name under which a directory is entered decides whether the next one is found.
  induction before using List.reverseRecOn generalizing behind with
  | nil => exact Or.inl (tour_closed hhost hlinks (Or.inl rfl))
  | append_singleton before name ih =>
    have hpath : path = before ++ name :: behind := by simpa using hpath
    rcases ih hpath (by simp) with ⟨other, hother, hplace⟩ | hhidden
    . by_cases hexcluded : isExcluded options.patterns (relativeText (other ++ [name])) = true
      . have hclean := isExcluded_eq_false_iff.mpr hlisted.clean
        exact Or.inr (isHidden_of_excluded hclean hpath hother hplace hexcluded)
      . left
        obtain ⟨⟨below, hbelow⟩, hskipped⟩ := hlisted.directories before name behind hpath hne
        obtain ⟨entries, hbefore, hmem⟩ := Node.exists_of_descend?_concat hbelow
        obtain ⟨found, hfound⟩ := exists_listEntries_of_records_eq_nil hrecords hother
        rw [listEntries_of_realPlace_eq hhost htop hbefore hplace hfound] at hfound
        have hmem := Node.mem_byName.mpr hmem
        have hnext : other ++ [name] ∈ directoriesIn host options top other := by
          rw [directoriesIn, mem_foundIn]
          exact ⟨_, name, _, hfound, hmem, rfl, rfl, by simpa using hskipped,
            by simpa using hexcluded⟩
        obtain ⟨next, htour, hnext⟩ := tour_closed hhost hlinks (Or.inr ⟨other, hother, hnext⟩)
        refine ⟨next, htour, ?_⟩
        rw [hnext]
        rw [realPlace_concat_of_mem_tour hhost htop hother hfound hmem rfl]
        rw [realPlace_concat_of_descend? hhost htop hbelow rfl]
        rw [hplace]
    . exact Or.inr hhidden

omit hlinks in
theorem mem_files_of_entered {before other : List String} {name : String}
    (hpath : path = before ++ [name]) (hother : other ∈ tour host options top)
    (hplace : realPlace host (top.descend other) = realPlace host (top.descend before))
    (hclean : isExcluded options.patterns (relativeText (other ++ [name])) = false) :
    top.descend (other ++ [name]) ∈ (list host options top).1 ∧
      realPlace host (top.descend (other ++ [name])) = realPlace host (top.descend path) := by
  subst hpath
  obtain ⟨bytes, hbytes⟩ := hlisted.file
  obtain ⟨source, hlast, hsource⟩ := hlisted.source
  rw [List.getLast?_concat] at hlast
  simp only [Option.some.injEq] at hlast
  subst hlast
  obtain ⟨entries, hbefore, hmem⟩ := Node.exists_of_descend?_concat hbytes
  obtain ⟨found, hfound⟩ := exists_listEntries_of_records_eq_nil hrecords hother
  rw [listEntries_of_realPlace_eq hhost htop hbefore hplace hfound] at hfound
  have hmem := Node.mem_byName.mpr hmem
  constructor
  . rw [mem_files_list]
    refine ⟨other, hother, ?_⟩
    rw [filesIn, mem_foundIn]
    exact ⟨_, name, _, hfound, hmem, rfl, rfl, hsource, hclean⟩
  . rw [realPlace_concat_of_mem_tour hhost htop hother hfound hmem rfl]
    rw [realPlace_concat_of_descend? hhost htop hbytes rfl]
    rw [hplace]

omit hlinks hrecords in
theorem entered_or_isLinked_of_mem_files {before : List String} {name : String}
    (hpath : path = before ++ [name]) {file : Path} (hfile : file ∈ (list host options top).1)
    (hplace : realPlace host file = realPlace host (top.descend path)) :
    (∃ other ∈ tour host options top,
      realPlace host (top.descend other) = realPlace host (top.descend before) ∧
      isExcluded options.patterns (relativeText (other ++ [name])) = false) ∨
      IsLinked host options top path := by
  rw [list_eq] at hfile
  obtain ⟨names, hnames, rfl⟩ := List.mem_map.mp hfile
  obtain ⟨other, hother, hnames⟩ := List.mem_flatMap.mp hnames
  obtain ⟨found, name', node, hfound, hmem, rfl, hkind, hsource, hclean⟩ :=
    (mem_foundIn host options top).mp hnames
  cases hnode : node.isLink with
  | true =>
    right
    cases node with
    | link target =>
      exact ⟨other, hother, found, name', target, hfound, hmem, hkind, hsource, hclean, hplace⟩
    | file | directory | special => simp [Node.isLink] at hnode
  | false =>
    -- A file that is no link itself has the name and the directory that its real place says.
    left
    subst hpath
    obtain ⟨bytes, hbytes⟩ := hlisted.file
    rw [realPlace_concat_of_mem_tour hhost htop hother hfound hmem hnode] at hplace
    rw [realPlace_concat_of_descend? hhost htop hbytes rfl] at hplace
    simp only [List.cons.injEq] at hplace
    obtain ⟨rfl, hplace⟩ := hplace
    exact ⟨other, hother, hplace, hclean⟩

omit hlinks in
theorem kept_iff {before : List String} {name : String} (hpath : path = before ++ [name]) :
    (∃ file ∈ (list host options top).1, realPlace host file = realPlace host (top.descend path)) ↔
      (∃ other ∈ tour host options top,
        realPlace host (top.descend other) = realPlace host (top.descend before) ∧
        isExcluded options.patterns (relativeText (other ++ [name])) = false) ∨
      IsLinked host options top path := by
  constructor
  . rintro ⟨file, hfile, hplace⟩
    exact entered_or_isLinked_of_mem_files hhost htop hlisted hpath hfile hplace
  . rintro (⟨other, hother, hplace, hclean⟩ |
      ⟨other, hother, found, linked, target, hfound, hmem, hkind, hsource, hclean, hplace⟩)
    . obtain ⟨hfile, hplace⟩ :=
        mem_files_of_entered hhost htop hrecords hlisted hpath hother hplace hclean
      exact ⟨_, hfile, hplace⟩
    . refine ⟨top.descend (other ++ [linked]), ?_, hplace⟩
      rw [mem_files_list]
      refine ⟨other, hother, ?_⟩
      rw [filesIn, mem_foundIn]
      exact ⟨found, linked, _, hfound, hmem, rfl, hkind, hsource, hclean⟩

theorem kept_or_isHidden :
    (∃ file ∈ (list host options top).1, realPlace host file = realPlace host (top.descend path)) ∨
      IsHidden host options top path := by
  obtain ⟨before, name, hpath⟩ := (List.eq_nil_or_concat path).resolve_left hlisted.ne_nil
  rw [List.concat_eq_append] at hpath
  rcases exists_entered_or_isHidden hhost htop hlinks hrecords hlisted hpath (by simp) with
    ⟨other, hother, hplace⟩ | hhidden
  . cases hclean : isExcluded options.patterns (relativeText (other ++ [name])) with
    | false =>
      left
      rw [kept_iff hhost htop hrecords hlisted hpath]
      exact Or.inl ⟨other, hother, hplace, hclean⟩
    | true =>
      right
      exact isHidden_of_excluded (isExcluded_eq_false_iff.mpr hlisted.clean) hpath hother hplace hclean
  . exact Or.inr hhidden

end Kept

theorem list?_eq_ok_iff {files : List Path} {records : List Log.Record} :
    list? host options top = .ok (files, records) ↔
      Path.hasNul top.text = false ∧ list host options top = (files, records) := by
  unfold list?
  cases Path.hasNul top.text <;> simp

theorem isListed_of_mem_list (hhost : host.WellFormed) (htop : top.IsProper)
    (hplain : options.followLinks = false) {path : List String}
    (h : top.descend path ∈ (list host options top).1) :
    IsListed options (listable host top) [] (topNode host top) path := by
  rw [list_eq] at h
  rw [flatMap_tour_eq_walk hhost htop hplain] at h
  rw [List.mem_map_of_injective (Path.descend_injective top)] at h
  simpa [mem_walk (wellFormed_topNode hhost)] using h

def aliasHost : Host where
  tree := .directory [("a", .link "z"), ("z", .directory [("b.ts", .file [])])]
  cwd := []
  denied := []

theorem list?_aliasHost :
    list? aliasHost { patterns := ["a/b"], followLinks := false } (.ofText ".") =
      .ok ([{ anchor := .here, names := ["z", "b.ts"] }], []) := by
  cbv

theorem list?_aliasHost_followLinks :
    list? aliasHost { patterns := ["a/b"], followLinks := true } (.ofText ".") = .ok ([], []) := by
  cbv

end Listing

end ParadigmScan
