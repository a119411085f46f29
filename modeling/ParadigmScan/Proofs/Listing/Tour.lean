import ParadigmScan.Proofs.FileTree.Locations
import ParadigmScan.Proofs.Listing.Patterns

/-!
This module contains the tour of a listing: the directories that it enters, in order. What a listing finds and
what it logs is what each directory of the tour contributes, so that whatever is to be shown about a listing
can be shown about its tour.
-/

namespace ParadigmScan

namespace Listing

variable (host : Host) (options : Options) (top : Path)

def foundIn (kind : EntryKind) (accepts : String → Bool) (names : List String) : List (List String) :=
  match host.listEntries (top.descend names) with
  | .error _ => []
  | .ok entries => admitted host options top names kind accepts entries

def filesIn : List String → List (List String) := foundIn host options top .file isSourceFile

def directoriesIn : List String → List (List String) :=
  foundIn host options top .directory (!options.skipped.contains ·)

def refusalIn (names : List String) : List Log.Record :=
  match host.listEntries (top.descend names) with
  | .error error =>
    let text := (top.descend names).text
    [Log.debug "scanning.walker" s!"Skipping unreadable directory {text}: {error.message text}"]
  | .ok _ => []

theorem enter_eq (names : List String) (state : State) :
    enter host options top names state =
      { pending := directoriesIn host options top names ++ state.pending
        entered := state.entered
        files := state.files ++ filesIn host options top names
        records := state.records ++ refusalIn host top names } := by
  simp only [enter, directoriesIn, filesIn, foundIn, refusalIn]
  cases host.listEntries (top.descend names) with
  | error error => simp
  | ok entries => simp

/--
The directories that are entered from a list of pending ones on, with those left out whose real place was
entered before.
-/
def trail : Nat → List (List String) → List (List String) → List (List String)
  | 0, _, _ => []
  | _, [], _ => []
  | fuel + 1, names :: pending, entered =>
    let directories := directoriesIn host options top names
    if options.followLinks then
      let place := realPlace host (top.descend names)
      if entered.contains place then trail fuel pending entered
      else names :: trail fuel (directories ++ pending) (place :: entered)
    else
      names :: trail fuel (directories ++ pending) entered

def tour : List (List String) := trail host options top (host.tree.size + 1) [[]] []

theorem run_eq (fuel : Nat) (state : State) :
    (run host options top fuel state).files =
      state.files ++ (trail host options top fuel state.pending state.entered).flatMap
        (filesIn host options top) ∧
    (run host options top fuel state).records =
      state.records ++ (trail host options top fuel state.pending state.entered).flatMap
        (refusalIn host top) := by
  induction fuel generalizing state with
  | zero => simp [run, trail]
  | succ fuel ih =>
    obtain ⟨pending, entered, files, records⟩ := state
    cases pending with
    | nil => simp [run, trail]
    | cons names pending =>
      simp only [run, trail]
      split
      . split
        . apply ih
        . rw [enter_eq]
          specialize ih { pending := directoriesIn host options top names ++ pending
                          entered := realPlace host (top.descend names) :: entered
                          files := files ++ filesIn host options top names
                          records := records ++ refusalIn host top names }
          simpa using ih
      . rw [enter_eq]
        specialize ih { pending := directoriesIn host options top names ++ pending
                        entered := entered
                        files := files ++ filesIn host options top names
                        records := records ++ refusalIn host top names }
        simpa using ih

theorem list_eq :
    list host options top =
      (((tour host options top).flatMap (filesIn host options top)).map top.descend,
        (tour host options top).flatMap (refusalIn host top)) := by
  have h := run_eq host options top (host.tree.size + 1) { pending := [[]] }
  unfold list tour
  simp only [h.1, h.2, List.nil_append]

theorem mem_foundIn {names path : List String} {kind : EntryKind} {accepts : String → Bool} :
    path ∈ foundIn host options top kind accepts names ↔
      ∃ found name node, host.listEntries (top.descend names) = .ok found ∧ (name, node) ∈ found ∧
        path = names ++ [name] ∧
        entryKind host options (top.descend (names ++ [name])) node = kind ∧ accepts name = true ∧
        isExcluded options.patterns (relativeText (names ++ [name])) = false := by
  unfold foundIn
  cases host.listEntries (top.descend names) with
  | error error => simp
  | ok found =>
    simp only [admitted, List.mem_map, List.mem_filter]
    grind

section Invariants

variable {host : Host} {options : Options} {top : Path}

theorem trail_forall {p : List String → Prop} {fuel : Nat} {pending entered : List (List String)}
    (hstep : ∀ names ∈ trail host options top fuel pending entered, p names →
      ∀ below ∈ directoriesIn host options top names, p below)
    (hpending : ∀ names ∈ pending, p names) :
    ∀ names ∈ trail host options top fuel pending entered, p names := by
  induction fuel generalizing pending entered with
  | zero => simp [trail]
  | succ fuel ih =>
    cases pending with
    | nil => simp [trail]
    | cons names pending =>
      have hnames := hpending names (by simp)
      have hrest : ∀ other ∈ pending, p other := fun other h => hpending other (by simp [h])
      generalize htrail : trail host options top (fuel + 1) (names :: pending) entered = visited
        at hstep ⊢
      simp only [trail] at htrail
      split at htrail
      . split at htrail
        . rw [← htrail] at hstep ⊢
          exact ih hstep hrest
        . rw [← htrail] at hstep ⊢
          rw [List.forall_mem_cons] at hstep ⊢
          exact ⟨hnames, ih hstep.2 (List.forall_mem_append.mpr ⟨hstep.1 hnames, hrest⟩)⟩
      . rw [← htrail] at hstep ⊢
        rw [List.forall_mem_cons] at hstep ⊢
        exact ⟨hnames, ih hstep.2 (List.forall_mem_append.mpr ⟨hstep.1 hnames, hrest⟩)⟩

theorem isName_and_clean_of_mem_tour (hhost : host.WellFormed) {names : List String}
    (h : names ∈ tour host options top) :
    (∀ name ∈ names, Node.IsName name) ∧ isExcluded options.patterns (relativeText names) = false := by
  apply @trail_forall host options top
    (fun names => (∀ name ∈ names, Node.IsName name) ∧
      isExcluded options.patterns (relativeText names) = false) _ _ _ _ _ names h
  . intro names _ hnames below hbelow
    obtain ⟨found, name, node, hfound, hmem, rfl, -, -, hclean⟩ :=
      (mem_foundIn host options top).mp hbelow
    have hname := Host.isName_of_mem_listEntries hhost hfound hmem
    refine ⟨?_, hclean⟩
    simpa [or_imp, forall_and, hname] using hnames.1
  . have hempty : isExcluded options.patterns (relativeText []) = false := by
      rw [isExcluded_eq_false_iff]
      simp [relativeText]
    simpa using hempty

theorem isName_of_mem_filesIn (hhost : host.WellFormed) {names path : List String}
    (hnames : names ∈ tour host options top) (h : path ∈ filesIn host options top names) :
    ∀ name ∈ path, Node.IsName name := by
  obtain ⟨found, name, node, hfound, hmem, rfl, -⟩ := (mem_foundIn host options top).mp h
  have hname := Host.isName_of_mem_listEntries hhost hfound hmem
  simpa [or_imp, forall_and, hname] using (isName_and_clean_of_mem_tour hhost hnames).1

end Invariants

end Listing

end ParadigmScan
