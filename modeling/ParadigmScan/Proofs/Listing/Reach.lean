import ParadigmScan.Proofs.FileTree.RealPaths
import ParadigmScan.Proofs.Listing.Aliases
import ParadigmScan.Proofs.Listing.Filtering

/-!
This module contains listings that follow links as searches of a graph. The nodes of the graph are the real places of
directories, so that links may lead around in circles. The search ends, it enters no place twice, and it enters the
places that can be reached, unless the system refuses to look a link up along the way that the search took.
-/

namespace ParadigmScan

namespace Listing

variable {host : Host} {options : Options} {top : Path}

theorem run_of_pending_nil (fuel : Nat) {state : State} (h : state.pending = []) :
    run host options top fuel state = state := by
  cases fuel with
  | zero => rfl
  | succ fuel => simp [run, h]

theorem run_add (fuel more : Nat) (state : State) :
    run host options top (fuel + more) state =
      run host options top more (run host options top fuel state) := by
  induction fuel generalizing state with
  | zero =>
    rw [Nat.zero_add]
    rfl
  | succ fuel ih =>
    rw [Nat.add_right_comm]
    cases hpending : state.pending with
    | nil =>
      rw [run_of_pending_nil _ hpending]
      rw [run_of_pending_nil _ hpending]
      rw [run_of_pending_nil _ hpending]
    | cons names pending =>
      simp only [run, hpending]
      split
      . split
        . apply ih
        . apply ih
      . apply ih

section Run

variable (hlinks : options.followLinks = true) (fuel : Nat) {names : List String}
  {pending : List (List String)} {state : State} (hpending : state.pending = names :: pending)

include hlinks hpending

theorem run_cons_of_mem (h : realPlace host (top.descend names) ∈ state.entered) :
    run host options top (fuel + 1) state = run host options top fuel { state with pending } := by
  simp [run, hpending, hlinks, h]

theorem run_cons_of_notMem (h : realPlace host (top.descend names) ∉ state.entered) :
    run host options top (fuel + 1) state = run host options top fuel
      { pending := directoriesIn host options top names ++ pending
        entered := realPlace host (top.descend names) :: state.entered
        files := state.files ++ filesIn host options top names
        records := state.records ++ refusalIn host top names } := by
  simp [run, hpending, hlinks, h, enter_eq]

end Run

section Ends

variable (hlinks : options.followLinks = true)

include hlinks

theorem entered_run (fuel : Nat) (state : State) :
    (run host options top fuel state).entered =
      ((trail host options top fuel state.pending state.entered).map
        fun names => realPlace host (top.descend names)).reverse ++ state.entered := by
  induction fuel generalizing state with
  | zero => simp [run, trail]
  | succ fuel ih =>
    cases hpending : state.pending with
    | nil =>
      rw [run_of_pending_nil _ hpending]
      simp [trail]
    | cons names pending =>
      by_cases hentered : realPlace host (top.descend names) ∈ state.entered
      . rw [run_cons_of_mem hlinks fuel hpending hentered]
        rw [trail_cons_of_mem hlinks fuel pending hentered]
        rw [ih]
      . rw [run_cons_of_notMem hlinks fuel hpending hentered]
        rw [trail_cons_of_notMem hlinks fuel pending hentered]
        rw [ih]
        simp

theorem pending_run (hhost : host.WellFormed) {fuel : Nat} {state : State}
    (hfuel : state.pending.length + host.tree.entriesLeft state.entered ≤ fuel) :
    (run host options top fuel state).pending = [] := by
  induction fuel generalizing state with
  | zero =>
    rw [run]
    exact List.eq_nil_of_length_eq_zero (by omega)
  | succ fuel ih =>
    cases hpending : state.pending with
    | nil =>
      rw [run_of_pending_nil _ hpending]
      exact hpending
    | cons names pending =>
      rw [hpending] at hfuel
      rw [List.length_cons] at hfuel
      by_cases hentered : realPlace host (top.descend names) ∈ state.entered
      . rw [run_cons_of_mem hlinks fuel hpending hentered]
        apply ih
        simp only
        omega
      . rw [run_cons_of_notMem hlinks fuel hpending hentered]
        have hleft : (directoriesIn host options top names).length + _ ≤ _ :=
          length_directoriesIn_add_le hhost hentered
        apply ih
        simp only [List.length_append]
        omega

theorem trail_fresh {fuel : Nat} {pending entered : List (List String)} :
    (∀ names ∈ trail host options top fuel pending entered,
      realPlace host (top.descend names) ∉ entered) ∧
    ((trail host options top fuel pending entered).map
      fun names => realPlace host (top.descend names)).Nodup := by
  induction fuel generalizing pending entered with
  | zero => simp [trail]
  | succ fuel ih =>
    cases pending with
    | nil => simp [trail]
    | cons names pending =>
      by_cases hentered : realPlace host (top.descend names) ∈ entered
      . rw [trail_cons_of_mem hlinks fuel pending hentered]
        exact ih
      . rw [trail_cons_of_notMem hlinks fuel pending hentered]
        obtain ⟨hfresh, hnodup⟩ := @ih (directoriesIn host options top names ++ pending)
          (realPlace host (top.descend names) :: entered)
        rw [List.forall_mem_cons]
        rw [List.map_cons]
        rw [List.nodup_cons]
        refine ⟨⟨hentered, ?_⟩, ?_, hnodup⟩
        . intro other hother hplace
          exact hfresh other hother (List.mem_cons_of_mem _ hplace)
        . intro hmem
          obtain ⟨other, hother, hplace⟩ := List.mem_map.mp hmem
          apply hfresh other hother
          rw [hplace]
          exact List.mem_cons_self

theorem eq_of_realPlace_eq {names other : List String} (hnames : names ∈ tour host options top)
    (hother : other ∈ tour host options top)
    (hplace : realPlace host (top.descend names) = realPlace host (top.descend other)) :
    names = other :=
  List.inj_on_of_nodup_map (trail_fresh hlinks).2 hnames hother hplace

theorem entered_run_tour :
    (run host options top (host.tree.size + 1) { pending := [[]] }).entered =
      ((tour host options top).map fun names => realPlace host (top.descend names)).reverse := by
  rw [entered_run hlinks]
  rw [List.append_nil]
  rfl

theorem pending_run_tour (hhost : host.WellFormed) :
    (run host options top (host.tree.size + 1) { pending := [[]] }).pending = [] := by
  apply pending_run hlinks hhost
  rw [List.length_singleton]
  have := host.tree.size_eq_entriesLeft_nil
  change 1 + host.tree.entriesLeft [] ≤ host.tree.size + 1
  omega

theorem run_of_size_lt (hhost : host.WellFormed) {fuel : Nat} (h : host.tree.size + 1 ≤ fuel) :
    run host options top fuel { pending := [[]] } =
      run host options top (host.tree.size + 1) { pending := [[]] } := by
  obtain ⟨more, rfl⟩ := Nat.le.dest h
  rw [run_add]
  exact run_of_pending_nil more (pending_run_tour hlinks hhost)

end Ends

theorem nodup_foundIn (hhost : host.WellFormed) (kind : EntryKind) (accepts : String → Bool)
    (names : List String) : (foundIn host options top kind accepts names).Nodup := by
  unfold foundIn
  cases hfound : host.listEntries (top.descend names) with
  | error error => simp
  | ok found =>
    obtain ⟨location, entries, hfollow, hat, rfl⟩ := Host.exists_of_listEntries hfound
    have hwellFormed := (Host.isLocation_follow hhost hfollow).wellFormed hhost
    rw [hat] at hwellFormed
    have hinjective : Function.Injective fun name : String => names ++ [name] := by
      intro a b h
      simpa using h
    have hnodup := (nodup_names_filter hwellFormed fun entry =>
      entryKind host options (top.descend (names ++ [entry.1])) entry.2 == kind && accepts entry.1 &&
        !isExcluded options.patterns (relativeText (names ++ [entry.1]))).map hinjective
    simpa [admitted, Function.comp_def] using hnodup

theorem nodup_files (hhost : host.WellFormed) (hlinks : options.followLinks = true) :
    ((tour host options top).flatMap (filesIn host options top)).Nodup := by
  rw [List.nodup_flatMap]
  constructor
  . intro names _
    exact nodup_foundIn hhost .file isSourceFile names
  . have htour : (tour host options top).Nodup := List.Nodup.of_map _ (trail_fresh hlinks).2
    apply htour.imp
    intro names other hne path hpath hpath'
    -- The path of a file says in which directory it was found.
    obtain ⟨-, name, -, -, -, rfl, -⟩ := (mem_foundIn host options top).mp hpath
    obtain ⟨-, name', -, -, -, heq, -⟩ := (mem_foundIn host options top).mp hpath'
    exact hne (List.append_inj_left' heq rfl)

theorem not_containsPattern_of_isExcluded_concat {patterns names : List String} {name : String}
    (h : isExcluded patterns (relativeText (names ++ [name])) = false) :
    ¬ ContainsPattern patterns name := by
  rintro ⟨pattern, hpattern, hne, hcontained⟩
  apply isExcluded_eq_false_iff.mp h pattern hpattern hne
  apply hcontained.trans
  unfold relativeText
  cases names with
  | nil => simp
  | cons first names =>
    rw [String.intercalate_append_of_ne_nil (by simp) (by simp)]
    rw [String.intercalate_singleton]
    rw [String.toList_append]
    exact (List.suffix_append _ _).isInfix

theorem isExcluded_concat {patterns : List String}
    (hslash : ∀ pattern ∈ patterns, '/' ∉ pattern.toList) {names : List String} {name : String}
    (hnames : isExcluded patterns (relativeText names) = false)
    (hname : ¬ ContainsPattern patterns name) :
    isExcluded patterns (relativeText (names ++ [name])) = false := by
  rw [Bool.eq_false_iff] at hnames ⊢
  rw [ne_eq] at hnames ⊢
  rw [isExcluded_relativeText_iff hslash] at hnames ⊢
  rintro ⟨part, hpart, hexcluded⟩
  rcases List.mem_append.mp hpart with hpart | hpart
  . exact hnames ⟨part, hpart, hexcluded⟩
  . rw [List.mem_singleton] at hpart
    rw [hpart] at hexcluded
    exact hname (isExcluded_iff.mp hexcluded)

/--
A directory has an entry of this name, which contains no pattern, and the entry leads to `location` if it is looked
up in the real place of the directory.
-/
structure LeadsTo (host : Host) (options : Options) (place : List String) (name : String)
    (location : Location) : Prop where
  entry : ∃ entries, host.tree.descend? place.reverse = some (.directory entries) ∧
    name ∈ entries.map (·.1)
  clean : ¬ ContainsPattern options.patterns name
  follow : host.follow (Path.real (name :: place)).text = .ok (.node location)

def Leads (host : Host) (options : Options) (isOpen : List String → Bool)
    (place place' : List String) : Prop :=
  isOpen place = true ∧ ∃ name location, LeadsTo host options place name location ∧
    name ∉ options.skipped ∧ (host.nodeAt location).isDirectory = true ∧
    place' = location.map (·.1)

def IsReachable (host : Host) (options : Options) (top : Path) (isOpen : List String → Bool) :
    List String → Prop :=
  Relation.ReflTransGen (Leads host options isOpen) (realPlace host top)

def HoldsSource (host : Host) (options : Options) (place : List String) (name : String) : Prop :=
  ∃ location, LeadsTo host options place name location ∧ isSourceFile name = true ∧
    (host.nodeAt location).isFile = true

/--
Links in the directories of a tour can be looked up under the paths of the tour, if they can be looked up in the real
places of the directories. The system looks up no path that is too long or that leads over too many links.
-/
def LinksInReach (host : Host) (options : Options) (top : Path) : Prop :=
  ∀ names ∈ tour host options top, ∀ found name target location,
    host.listEntries (top.descend names) = .ok found → (name, Node.link target) ∈ found →
    host.follow (Path.real (name :: realPlace host (top.descend names))).text = .ok (.node location) →
    ∃ node, host.resolve (top.descend (names ++ [name])).text = .ok node

/--
The real places of the directories of a tour are found name by name, so that no directory is taken for another one
because of a link that cannot be examined.
-/
def RealPathsInReach (host : Host) (options : Options) (top : Path) : Prop :=
  ∀ names ∈ tour host options top, ∀ location,
    host.follow (top.descend names).text = .ok (.node location) →
    host.realNames? (top.descend names) = some (location.map (·.1))

theorem realPathsInReach_of_showsLinks (hhost : host.WellFormed) (hshows : host.ShowsLinks)
    (htop : top.IsProper) (habsolute : top.isAbsolute = true) : RealPathsInReach host options top := by
  intro names hnames location hfollow
  have hproper := (isName_and_clean_of_mem_tour hhost hnames).1
  exact Host.realNames?_of_follow hhost hshows (htop.descend fun name h => (hproper name h).toIsStep)
    habsolute hfollow

theorem EntryKind.ofNode_eq_directory_iff {node : Node} :
    ofNode node = .directory ↔ node.isDirectory = true := by
  cases node <;> simp [ofNode, Node.isDirectory]

theorem EntryKind.ofNode_eq_file_iff {node : Node} : ofNode node = .file ↔ node.isFile = true := by
  cases node <;> simp [ofNode, Node.isFile]

section Entries

variable (hhost : host.WellFormed) (htop : top.IsProper) {names : List String}
  (hnames : names ∈ tour host options top) {found : List (String × Node)}
  (hfound : host.listEntries (top.descend names) = .ok found) {name : String} {node : Node}
  (hmem : (name, node) ∈ found)

include hhost hfound

theorem descend?_realPlace :
    ∃ entries, host.tree.descend? (realPlace host (top.descend names)).reverse =
      some (.directory entries) ∧ found = Node.byName entries := by
  obtain ⟨location, entries, hfollow, hat, rfl⟩ := Host.exists_of_listEntries hfound
  have hdescend := (Host.isLocation_follow hhost hfollow).descend?
  rw [hat] at hdescend
  rw [realPlace_of_follow hfollow]
  exact ⟨entries, hdescend, rfl⟩

include htop hnames hmem

theorem exists_follow_concat (hlinks : options.followLinks = true)
    (hresolve : node.isLink = true →
      ∃ target, host.resolve (top.descend (names ++ [name])).text = .ok target) :
    ∃ location, host.follow (top.descend (names ++ [name])).text = .ok (.node location) ∧
      entryKind host options (top.descend (names ++ [name])) node = .ofNode (host.nodeAt location) := by
  cases hnode : node.isLink with
  | true =>
    cases node with
    | link text =>
      obtain ⟨target, htarget⟩ := hresolve hnode
      obtain ⟨-, location, hfollow, hat⟩ := Host.resolve_eq_ok_iff.mp htarget
      refine ⟨location, hfollow, ?_⟩
      simp [entryKind, hlinks, htarget, hat]
    | file | directory | special => simp [Node.isLink] at hnode
  | false =>
    have hproper := (isName_and_clean_of_mem_tour hhost hnames).1
    obtain ⟨location, entries, hfollow, hat, rfl⟩ := Host.exists_of_listEntries hfound
    have hwellFormed := (Host.isLocation_follow hhost hfollow).wellFormed hhost
    have hchild : (host.nodeAt location).child? name = some node := by
      rw [hat] at hwellFormed ⊢
      exact hwellFormed.child?_eq_some_iff.mpr (Node.mem_byName.mp hmem)
    have hproper := htop.descend fun name h => (hproper name h).toIsStep
    refine ⟨(name, node) :: location, ?_, entryKind_of_not_link _ hnode⟩
    rw [← Path.descend_descend]
    exact Host.follow_child hhost hproper hfollow hchild hnode

theorem follow_real_of_follow_concat {location : Location}
    (h : host.follow (top.descend (names ++ [name])).text = .ok (.node location)) :
    host.follow (Path.real (name :: realPlace host (top.descend names))).text = .ok (.node location) := by
  have hproper := (isName_and_clean_of_mem_tour hhost hnames).1
  have hname := Host.isName_of_mem_listEntries hhost hfound hmem
  obtain ⟨start, entries, hfollow, hat, rfl⟩ := Host.exists_of_listEntries hfound
  have hproper := htop.descend fun name h => (hproper name h).toIsStep
  have hlink : (host.nodeAt start).isLink = false := by
    rw [hat]
    rfl
  rw [realPlace_of_follow hfollow]
  apply Host.follow_real_of_follow hhost hproper hfollow hlink hname
  rw [Path.descend_descend]
  exact h

end Entries

section Found

variable (hhost : host.WellFormed) (htop : top.IsProper) (hlinks : options.followLinks = true)
  {names : List String} (hnames : names ∈ tour host options top)

include hhost htop hlinks hnames

theorem leadsTo_of_mem_foundIn {kind : EntryKind} (hkind : kind ≠ .other) {accepts : String → Bool}
    {path : List String} (h : path ∈ foundIn host options top kind accepts names) :
    ∃ name location, path = names ++ [name] ∧
      LeadsTo host options (realPlace host (top.descend names)) name location ∧
      accepts name = true ∧ EntryKind.ofNode (host.nodeAt location) = kind ∧
      realPlace host (top.descend path) = location.map (·.1) := by
  obtain ⟨found, name, node, hfound, hmem, rfl, hentryKind, haccepts, hclean⟩ :=
    (mem_foundIn host options top).mp h
  have hresolve : node.isLink = true →
      ∃ target, host.resolve (top.descend (names ++ [name])).text = .ok target := by
    intro hnode
    cases hresolve : host.resolve (top.descend (names ++ [name])).text with
    | ok target => exact ⟨target, rfl⟩
    | error error =>
      cases node with
      | link text =>
        simp only [entryKind, hlinks, ↓reduceIte, hresolve] at hentryKind
        exact absurd hentryKind.symm hkind
      | file | directory | special => simp [Node.isLink] at hnode
  obtain ⟨location, hfollow, hlocation⟩ :=
    exists_follow_concat hhost htop hnames hfound hmem hlinks hresolve
  obtain ⟨entries, hentries, rfl⟩ := descend?_realPlace hhost hfound
  refine ⟨name, location, rfl, ⟨⟨entries, hentries, ?_⟩, ?_, ?_⟩, haccepts, ?_, ?_⟩
  . exact List.mem_map.mpr ⟨_, Node.mem_byName.mp hmem, rfl⟩
  . exact not_containsPattern_of_isExcluded_concat hclean
  . exact follow_real_of_follow_concat hhost htop hnames hfound hmem hfollow
  . exact hlocation.symm.trans hentryKind
  . exact realPlace_of_follow hfollow

theorem mem_foundIn_of_leadsTo (hslash : ∀ pattern ∈ options.patterns, '/' ∉ pattern.toList)
    (hreach : LinksInReach host options top) (hlistable : listable host top names = true)
    {name : String} {location : Location}
    (h : LeadsTo host options (realPlace host (top.descend names)) name location)
    {accepts : String → Bool} (haccepts : accepts name = true) :
    names ++ [name] ∈ foundIn host options top (.ofNode (host.nodeAt location)) accepts names ∧
      realPlace host (top.descend (names ++ [name])) = location.map (·.1) := by
  obtain ⟨found, hfound⟩ : ∃ found, host.listEntries (top.descend names) = .ok found := by
    unfold listable at hlistable
    cases hfound : host.listEntries (top.descend names) with
    | error error => simp [hfound, Except.isOk, Except.toBool] at hlistable
    | ok found => exact ⟨found, rfl⟩
  obtain ⟨node, hmem⟩ : ∃ node, (name, node) ∈ found := by
    obtain ⟨entries, hentries, rfl⟩ := descend?_realPlace hhost hfound
    obtain ⟨entries', hentries', hname⟩ := h.entry
    rw [hentries] at hentries'
    cases hentries'
    obtain ⟨entry, hentry, rfl⟩ := List.mem_map.mp hname
    exact ⟨entry.2, Node.mem_byName.mpr hentry⟩
  have hresolve : node.isLink = true →
      ∃ target, host.resolve (top.descend (names ++ [name])).text = .ok target := by
    intro hnode
    cases node with
    | link text => exact hreach names hnames found name text location hfound hmem h.follow
    | file | directory | special => simp [Node.isLink] at hnode
  obtain ⟨location', hfollow, hlocation⟩ :=
    exists_follow_concat hhost htop hnames hfound hmem hlinks hresolve
  have hreal := follow_real_of_follow_concat hhost htop hnames hfound hmem hfollow
  rw [h.follow] at hreal
  simp only [Except.ok.injEq, Destination.node.injEq] at hreal
  subst hreal
  refine ⟨?_, realPlace_of_follow hfollow⟩
  rw [mem_foundIn]
  refine ⟨found, name, node, hfound, hmem, rfl, hlocation, haccepts, ?_⟩
  exact isExcluded_concat hslash (isName_and_clean_of_mem_tour hhost hnames).2 h.clean

end Found

section Search

variable (hhost : host.WellFormed) (htop : top.IsProper) (hlinks : options.followLinks = true)
  {isOpen : List String → Bool}
  (hopen : ∀ names ∈ tour host options top,
    listable host top names = isOpen (realPlace host (top.descend names)))

theorem listable_of_mem_foundIn {kind : EntryKind} {accepts : String → Bool} {names path : List String}
    (h : path ∈ foundIn host options top kind accepts names) : listable host top names = true := by
  cases hlistable : listable host top names with
  | true => rfl
  | false =>
    rw [foundIn_of_not_listable hlistable] at h
    simp at h

include hhost htop hlinks hopen

theorem isReachable_of_mem_tour :
    ∀ names ∈ tour host options top,
      IsReachable host options top isOpen (realPlace host (top.descend names)) := by
  apply trail_forall
  . intro names hnames hreachable below hbelow
    have hisOpen : isOpen (realPlace host (top.descend names)) = true := by
      rw [← hopen names hnames]
      exact listable_of_mem_foundIn hbelow
    obtain ⟨name, location, rfl, hleads, hskipped, hkind, hplace⟩ :=
      leadsTo_of_mem_foundIn hhost htop hlinks hnames (by simp) hbelow
    rw [EntryKind.ofNode_eq_directory_iff] at hkind
    exact hreachable.tail ⟨hisOpen, name, location, hleads, by simpa using hskipped, hkind, hplace⟩
  . intro names hnames
    rw [List.mem_singleton] at hnames
    rw [hnames]
    rw [Path.descend_nil]
    exact .refl

theorem holdsSource_of_mem_filesIn {names path : List String} (hnames : names ∈ tour host options top)
    (h : path ∈ filesIn host options top names) :
    ∃ name, path = names ++ [name] ∧ isOpen (realPlace host (top.descend names)) = true ∧
      HoldsSource host options (realPlace host (top.descend names)) name := by
  obtain ⟨name, location, rfl, hleads, hsource, hkind, -⟩ :=
    leadsTo_of_mem_foundIn hhost htop hlinks hnames (by simp) h
  rw [EntryKind.ofNode_eq_file_iff] at hkind
  rw [← hopen names hnames]
  exact ⟨name, rfl, listable_of_mem_foundIn h, location, hleads, hsource, hkind⟩

variable (hslash : ∀ pattern ∈ options.patterns, '/' ∉ pattern.toList)
  (hreach : LinksInReach host options top)

include hslash hreach

theorem exists_mem_tour_of_isReachable {place : List String}
    (h : IsReachable host options top isOpen place) :
    ∃ names ∈ tour host options top, realPlace host (top.descend names) = place := by
  induction h with
  | refl =>
    obtain ⟨names, hnames, hplace⟩ := @tour_closed _ _ top hhost hlinks [] (Or.inl rfl)
    rw [Path.descend_nil] at hplace
    exact ⟨names, hnames, hplace⟩
  | tail _ hleads ih =>
    obtain ⟨names, hnames, rfl⟩ := ih
    obtain ⟨hisOpen, name, location, hleads, hskipped, hdirectory, rfl⟩ := hleads
    rw [← hopen names hnames] at hisOpen
    obtain ⟨hfound, hplace⟩ := @mem_foundIn_of_leadsTo _ _ _ hhost htop hlinks _ hnames hslash hreach
      hisOpen _ _ hleads (!options.skipped.contains ·) (by simpa using hskipped)
    rw [EntryKind.ofNode_eq_directory_iff.mpr hdirectory] at hfound
    rw [← hplace]
    exact tour_closed hhost hlinks (Or.inr ⟨names, hnames, hfound⟩)

theorem exists_mem_filesIn_of_holdsSource {place : List String}
    (h : IsReachable host options top isOpen place) (hisOpen : isOpen place = true) {name : String}
    (hsource : HoldsSource host options place name) :
    ∃ names ∈ tour host options top, names ++ [name] ∈ filesIn host options top names ∧
      realPlace host (top.descend names) = place := by
  obtain ⟨names, hnames, rfl⟩ :=
    exists_mem_tour_of_isReachable hhost htop hlinks hopen hslash hreach h
  obtain ⟨location, hleads, haccepts, hfile⟩ := hsource
  rw [← hopen names hnames] at hisOpen
  obtain ⟨hfound, -⟩ := mem_foundIn_of_leadsTo hhost htop hlinks hnames hslash hreach hisOpen hleads
    haccepts
  rw [EntryKind.ofNode_eq_file_iff.mpr hfile] at hfound
  exact ⟨names, hnames, hfound, rfl⟩

end Search

theorem realNames?_of_listable (hreal : RealPathsInReach host options top) {names : List String}
    (hnames : names ∈ tour host options top) (h : listable host top names = true) :
    host.realNames? (top.descend names) = some (realPlace host (top.descend names)) := by
  unfold listable at h
  cases hfound : host.listEntries (top.descend names) with
  | error error => simp [hfound, Except.isOk, Except.toBool] at h
  | ok found =>
    obtain ⟨location, -, hfollow, -⟩ := Host.exists_of_listEntries hfound
    rw [realPlace_of_follow hfollow]
    exact hreal names hnames location hfollow

theorem mem_tour_of_concat_mem_files {names : List String} {name : String}
    (h : names ++ [name] ∈ (tour host options top).flatMap (filesIn host options top)) :
    names ∈ tour host options top := by
  obtain ⟨other, hother, hfile⟩ := List.mem_flatMap.mp h
  obtain ⟨-, name', -, -, -, heq, -⟩ := (mem_foundIn host options top).mp hfile
  rw [List.append_inj_left' heq rfl]
  exact hother

theorem eq_of_concat_mem_files (hlinks : options.followLinks = true) {names other : List String}
    {name : String} (hnames : names ++ [name] ∈ (tour host options top).flatMap (filesIn host options top))
    (hother : other ++ [name] ∈ (tour host options top).flatMap (filesIn host options top))
    (hplace : realPlace host (top.descend names) = realPlace host (top.descend other)) :
    names = other :=
  eq_of_realPlace_eq hlinks (mem_tour_of_concat_mem_files hnames)
    (mem_tour_of_concat_mem_files hother) hplace

def loopHost : Host where
  tree := .directory [
    ("d", .directory [("l", .link ".."), ("f.ts", .file [])]),
    ("k.ts", .link "d/f.ts")]
  cwd := []
  denied := []

theorem tour_loopHost : tour loopHost { followLinks := true } (.ofText "/") = [[], ["d"]] := by
  cbv

theorem linksInReach_loopHost : LinksInReach loopHost { followLinks := true } (.ofText "/") := by
  have htop : loopHost.listEntries (.ofText "/") = .ok [
      ("d", .directory [("l", .link ".."), ("f.ts", .file [])]), ("k.ts", .link "d/f.ts")] := by
    cbv
  have hbelow : loopHost.listEntries { anchor := .root, names := ["d"] } = .ok [
      ("f.ts", .file []), ("l", .link "..")] := by
    cbv
  intro names hnames found name target location hfound hmem _
  rw [tour_loopHost] at hnames
  simp only [List.mem_cons, List.not_mem_nil, or_false] at hnames
  rcases hnames with rfl | rfl
  . cases htop.symm.trans hfound
    obtain ⟨rfl, -⟩ : name = "k.ts" ∧ target = "d/f.ts" := by simpa using hmem
    exact ⟨.file [], by cbv⟩
  . cases hbelow.symm.trans hfound
    obtain ⟨rfl, -⟩ : name = "l" ∧ target = ".." := by simpa using hmem
    exact ⟨loopHost.tree, by cbv⟩

theorem wellFormed_loopHost : loopHost.WellFormed := by
  refine ⟨?_, ⟨_, rfl⟩⟩
  simp only [loopHost, Node.WellFormed, Node.WellFormedEntries, and_true, true_and]
  decide

theorem exists_child_of_descend?_link {node : Node} {names : List String} {target : String}
    (h : node.descend? names = some (.link target)) :
    names = [] ∧ node = .link target ∨
      ∃ entries name child below, node = .directory entries ∧ (name, child) ∈ entries ∧
        names = name :: below ∧ child.descend? below = some (.link target) := by
  cases names with
  | nil =>
    cases h
    exact .inl ⟨rfl, rfl⟩
  | cons name below =>
    obtain ⟨child, hchild, hbelow⟩ := Option.bind_eq_some_iff.mp h
    obtain ⟨entries, hentries, hmem⟩ := Node.child?_eq_some hchild
    exact .inr ⟨entries, name, child, below, hentries, hmem, rfl, hbelow⟩

theorem showsLinks_loopHost : loopHost.ShowsLinks := by
  have hlinks : ∀ names target, loopHost.tree.descend? names = some (.link target) →
      names = ["d", "l"] ∨ names = ["k.ts"] := by
    intro names target h
    obtain ⟨-, h⟩ | ⟨_, name, child, below, ⟨⟩, hmem, rfl, hbelow⟩ := exists_child_of_descend?_link h
    . cases h
    simp only [List.mem_cons, Prod.mk.injEq, List.not_mem_nil, or_false] at hmem
    rcases hmem with ⟨rfl, rfl⟩ | ⟨rfl, rfl⟩
    . obtain ⟨-, h⟩ | ⟨_, name, child, below, ⟨⟩, hmem, rfl, hbelow⟩ :=
        exists_child_of_descend?_link hbelow
      . cases h
      simp only [List.mem_cons, Prod.mk.injEq, List.not_mem_nil, or_false] at hmem
      rcases hmem with ⟨rfl, rfl⟩ | ⟨rfl, rfl⟩
      . obtain ⟨rfl, -⟩ | ⟨_, _, _, _, ⟨⟩, -⟩ := exists_child_of_descend?_link hbelow
        exact .inl rfl
      . obtain ⟨-, h⟩ | ⟨_, _, _, _, ⟨⟩, -⟩ := exists_child_of_descend?_link hbelow
        cases h
    . obtain ⟨rfl, -⟩ | ⟨_, _, _, _, ⟨⟩, -⟩ := exists_child_of_descend?_link hbelow
      exact .inr rfl
  intro place target hlink
  unfold Path.real
  rcases hlinks _ target hlink with hplace | hplace
  . rw [hplace]
    exact ⟨by decide, rfl⟩
  . rw [hplace]
    exact ⟨by decide, rfl⟩

/--
Forty numbered places, all but the last of them links to the next one. The last one is a directory that holds a link,
and the directory `r` has two links that lead to it: one over all the others, and one right there.
-/
def chainHost : Host where
  tree := .directory (
    ("f", .file []) ::
    ("r", .directory [("a", .link "../1"), ("b", .link "../40")]) ::
    ("40", .directory [("k.ts", .link "../f")]) ::
    (List.range 39).map fun n => (toString (n + 1), .link (toString (n + 2))))
  cwd := []
  denied := []

end Listing

end ParadigmScan
