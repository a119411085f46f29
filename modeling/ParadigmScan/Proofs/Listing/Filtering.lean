import ParadigmScan.Proofs.Listing.Selection

/-!
This module contains that leaving out directories early comes to the same as leaving out files late. A listing
that follows no links turns back as soon as the path of a directory contains a pattern; it still finds exactly
those files that a listing without patterns finds and whose own paths contain none.
-/

namespace ParadigmScan

/--
A text contains one of the patterns. Empty patterns do not count.
-/
def ContainsPattern (patterns : List String) (text : String) : Prop :=
  ∃ pattern ∈ patterns, pattern ≠ "" ∧ pattern.toList <:+: text.toList

instance (patterns : List String) (text : String) : Decidable (ContainsPattern patterns text) :=
  decidable_of_iff (isExcluded patterns text = true) isExcluded_iff

theorem decide_containsPattern (patterns : List String) (text : String) :
    decide (ContainsPattern patterns text) = isExcluded patterns text := by
  rw [Bool.eq_iff_iff]
  rw [decide_eq_true_eq]
  exact isExcluded_iff.symm

theorem isExcluded_append (patterns more : List String) (text : String) :
    isExcluded (patterns ++ more) text = (isExcluded patterns text || isExcluded more text) := by
  unfold isExcluded
  apply List.any_append

theorem isExcluded_congr {patterns patterns' : List String}
    (h : ∀ pattern, pattern ≠ "" → (pattern ∈ patterns ↔ pattern ∈ patterns')) :
    isExcluded patterns = isExcluded patterns' := by
  funext text
  rw [Bool.eq_iff_iff]
  rw [isExcluded_iff]
  rw [isExcluded_iff]
  apply exists_congr
  intro pattern
  by_cases hne : pattern = ""
  . simp [hne]
  . rw [h pattern hne]

namespace Path

def namesBelow (top path : Path) : List String := path.names.drop top.names.length

@[simp]
theorem namesBelow_descend (top : Path) (names : List String) :
    top.namesBelow (top.descend names) = names := by
  simp [namesBelow, descend]

end Path

namespace Listing

open Node (byName mem_byName)

section Congruence

variable (host : Host) (options : Options) (top : Path) {patterns patterns' : List String}
  (h : isExcluded patterns = isExcluded patterns')

include h

theorem foundIn_congr (kind : EntryKind) (accepts : String → Bool) :
    foundIn host { options with patterns } top kind accepts =
      foundIn host { options with patterns := patterns' } top kind accepts := by
  unfold foundIn admitted entryKind
  simp only [h]

theorem trail_congr (fuel : Nat) (pending entered : List (List String)) :
    trail host { options with patterns } top fuel pending entered =
      trail host { options with patterns := patterns' } top fuel pending entered := by
  have hdirectories : directoriesIn host { options with patterns } top =
      directoriesIn host { options with patterns := patterns' } top :=
    foundIn_congr host options top h .directory (!options.skipped.contains ·)
  induction fuel generalizing pending entered with
  | zero => rfl
  | succ fuel ih =>
    cases pending with
    | nil => rfl
    | cons names pending => simp only [trail, hdirectories, ih]

theorem list?_congr :
    list? host { options with patterns } top =
      list? host { options with patterns := patterns' } top := by
  unfold list?
  rw [list_eq]
  rw [list_eq]
  have htour : tour host { options with patterns } top =
      tour host { options with patterns := patterns' } top :=
    trail_congr host options top h _ _ _
  have hfiles : filesIn host { options with patterns } top =
      filesIn host { options with patterns := patterns' } top :=
    foundIn_congr host options top h .file isSourceFile
  rw [htour]
  rw [hfiles]

end Congruence

theorem flatMap_filter_and {α β : Type} {entries : List α} {p q : α → Bool} {f : α → List β}
    (h : ∀ entry ∈ entries, q entry = false → f entry = []) :
    (entries.filter fun entry => q entry && p entry).flatMap f = (entries.filter p).flatMap f := by
  induction entries with
  | nil => rfl
  | cons entry entries ih =>
    rw [List.forall_mem_cons] at h
    obtain ⟨hentry, hentries⟩ := h
    specialize ih hentries
    cases hp : p entry with
    | false => simpa [List.filter_cons, hp] using ih
    | true =>
      cases hq : q entry with
      | false => simpa [List.filter_cons, hp, hq, hentry hq] using ih
      | true => simpa [List.filter_cons, hp, hq] using ih

section Patterns

variable (options : Options) (patterns more : List String)

theorem takes_append (kind : EntryKind) (accepts : String → Bool) (names : List String) :
    takes { options with patterns := patterns ++ more } kind accepts names = fun entry =>
      !isExcluded more (relativeText (names ++ [entry.1])) &&
        takes { options with patterns } kind accepts names entry := by
  funext entry
  unfold takes
  simp only [isExcluded_append, Bool.not_or]
  ac_rfl

theorem isExcluded_of_mem_walk {options : Options} {listable : List String → Bool}
    {names found : List String} {node : Node} (hnode : node.WellFormed) {more : List String}
    (hnames : isExcluded more (relativeText names) = true)
    (h : found ∈ walk options listable names node) :
    isExcluded more (relativeText found) = true := by
  obtain ⟨path, rfl, -⟩ := (mem_walk hnode).mp h
  cases hfound : isExcluded more (relativeText (names ++ path)) with
  | true => rfl
  | false =>
    rw [isExcluded_relativeText_append hfound] at hnames
    contradiction

theorem walk_append_patterns (listable : List String → Bool) (names : List String) {node : Node}
    (hnode : node.WellFormed) :
    walk { options with patterns := patterns ++ more } listable names node =
      (walk { options with patterns } listable names node).filter
        fun path => !isExcluded more (relativeText path) := by
  cases node with
  | file | link | special => simp [walk]
  | directory entries =>
    induction entries using Node.directory_induction generalizing names with
    | step entries ih =>
      rw [walk_directory]
      rw [walk_directory]
      split
      . have hfile : takesFile { options with patterns := patterns ++ more } names = _ :=
          takes_append options patterns more .file isSourceFile names
        have hdirectory : takesDirectory { options with patterns := patterns ++ more } names = _ :=
          takes_append options patterns more .directory (!options.skipped.contains ·) names
        rw [hfile]
        rw [hdirectory]
        rw [List.filter_append]
        rw [List.filter_map]
        rw [List.filter_filter]
        rw [List.filter_flatMap]
        congr 1
        -- A directory that is not entered any more has nothing below it but what is left out.
        have hnothing : ∀ entry ∈ byName entries,
            (!isExcluded more (relativeText (names ++ [entry.1]))) = false →
            (walk { options with patterns } listable (names ++ [entry.1]) entry.2).filter
              (fun path => !isExcluded more (relativeText path)) = [] := by
          intro entry hentry hexcluded
          rw [Bool.not_eq_false'] at hexcluded
          rw [List.filter_eq_nil_iff]
          intro found hfound
          have hnode := hnode.entry (mem_byName.mp hentry)
          simp [isExcluded_of_mem_walk hnode hexcluded hfound]
        refine Eq.trans ?_ (flatMap_filter_and hnothing)
        apply List.flatMap_congr
        intro entry hentry
        obtain ⟨hmem, htakes⟩ := List.mem_filter.mp hentry
        obtain ⟨-, htakes⟩ := Bool.and_eq_true_iff.mp htakes
        obtain ⟨name, below, rfl⟩ := isDirectory_of_takesDirectory htakes
        have hmem := mem_byName.mp hmem
        exact ih name below hmem (names ++ [name]) (hnode.entry hmem)
      . rfl

end Patterns

theorem filter_map_descend (top : Path) (paths : List (List String)) (patterns : List String) :
    (paths.map top.descend).filter
        (fun file => ¬ ContainsPattern patterns (relativeText (top.namesBelow file))) =
      (paths.filter fun path => !isExcluded patterns (relativeText path)).map top.descend := by
  rw [List.filter_map]
  congr 1
  apply List.filter_congr
  intro path _
  simp only [Function.comp_apply, Path.namesBelow_descend, decide_not, decide_containsPattern]

/--
The files that a listing finds with some patterns are those that it finds without any, in the same order, less
those whose path from the top contains one of the patterns. Further patterns take away what contains them, and
neither the order of the patterns nor repeated or empty ones matter.
-/
theorem list?_patterns_filter {host : Host} (hhost : host.WellFormed) {options : Options}
    (hplain : options.followLinks = false) (root : String) :
    ∃ files : List String → List Path,
      (∀ patterns, ∃ records, list? host { options with patterns } (.ofText root) =
        if Path.hasNul (Path.ofText root).text then .error .nulInPath
        else .ok (files patterns, records)) ∧
      (∀ patterns, files patterns = (files []).filter fun file =>
        ¬ ContainsPattern patterns (relativeText ((Path.ofText root).namesBelow file))) ∧
      (∀ patterns more, files (patterns ++ more) = (files patterns).filter fun file =>
        ¬ ContainsPattern more (relativeText ((Path.ofText root).namesBelow file))) ∧
      ∀ patterns patterns',
        (∀ pattern, pattern ≠ "" → (pattern ∈ patterns ↔ pattern ∈ patterns')) →
        list? host { options with patterns } (.ofText root) =
          list? host { options with patterns := patterns' } (.ofText root) := by
  have hproper := Path.isProper_ofText root
  have hnode : (topNode host (.ofText root)).WellFormed := wellFormed_topNode hhost
  let files patterns := (walk { options with patterns } (Listing.listable host (.ofText root)) []
    (topNode host (.ofText root))).map (Path.ofText root).descend
  have hmore : ∀ patterns more, files (patterns ++ more) = (files patterns).filter fun file =>
      ¬ ContainsPattern more (relativeText ((Path.ofText root).namesBelow file)) := by
    intro patterns more
    unfold files
    rw [walk_append_patterns options patterns more _ _ hnode]
    rw [filter_map_descend]
  refine ⟨files, ?_, ?_, hmore, ?_⟩
  . intro patterns
    exact ⟨_, @list?_eq_walk { options with patterns } _ _ hhost hproper hplain⟩
  . intro patterns
    exact hmore [] patterns
  . intro patterns patterns' h
    exact list?_congr host options _ (isExcluded_congr h)

def twinHost : Host where
  tree := .directory [("z", .directory [("b.ts", .file [])]), ("y", .directory [("b.ts", .file [])])]
  cwd := []
  denied := []

theorem list?_patterns_filter_twinHost :
    twinHost.WellFormed ∧
      list? twinHost {} (.ofText ".") =
        .ok ([{ anchor := .here, names := ["y", "b.ts"] }, { anchor := .here, names := ["z", "b.ts"] }],
          []) ∧
      ∃ records, list? twinHost { patterns := ["", "y/b"] } (.ofText ".") =
        .ok ([{ anchor := .here, names := ["z", "b.ts"] }], records) := by
  have hhost : twinHost.WellFormed := by
    refine ⟨?_, ⟨_, rfl⟩⟩
    simp only [twinHost, Node.WellFormed, Node.WellFormedEntries, and_true]
    decide
  have hall : list? twinHost {} (.ofText ".") =
      .ok ([{ anchor := .here, names := ["y", "b.ts"] }, { anchor := .here, names := ["z", "b.ts"] }],
        []) := by
    cbv
  have hnul : Path.hasNul (Path.ofText ".").text = false := by cbv
  obtain ⟨files, hfiles, hfilter, -⟩ := @list?_patterns_filter _ hhost {} rfl "."
  obtain ⟨records, hnone⟩ := hfiles []
  obtain ⟨records', hsome⟩ := hfiles ["", "y/b"]
  rw [hnul] at hnone hsome
  rw [hfilter] at hsome
  have hfound : files [] = [["y", "b.ts"], ["z", "b.ts"]].map (Path.ofText ".").descend := by
    have htop : [["y", "b.ts"], ["z", "b.ts"]].map (Path.ofText ".").descend =
        [{ anchor := .here, names := ["y", "b.ts"] }, { anchor := .here, names := ["z", "b.ts"] }] := by
      cbv
    have := hnone.symm.trans hall
    simp only [Bool.false_eq_true, ↓reduceIte, Except.ok.injEq, Prod.mk.injEq] at this
    rw [htop]
    exact this.1
  have hclean : ([["y", "b.ts"], ["z", "b.ts"]].filter fun path =>
      !isExcluded ["", "y/b"] (relativeText path)) = [["z", "b.ts"]] := by
    cbv
  have htop : [["z", "b.ts"]].map (Path.ofText ".").descend =
      [{ anchor := .here, names := ["z", "b.ts"] }] := by
    cbv
  rw [hfound] at hsome
  rw [filter_map_descend] at hsome
  rw [hclean] at hsome
  rw [htop] at hsome
  exact ⟨hhost, hall, records', hsome⟩

end Listing

end ParadigmScan
