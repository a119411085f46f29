import Mathlib.Algebra.Order.BigOperators.Group.List
import Mathlib.Algebra.Order.Ring.Nat
import ParadigmScan.Proofs.FileTree.Locations
import ParadigmScan.Proofs.Listing.Patterns
import ParadigmScan.Proofs.Listing.Tour

/-!
This module contains the order of a listing that follows no links: a directory is entered before the
directories below it, and they are entered one after the other in the order of their names. The stack of
pending directories thus comes to a recursion over the tree of files.
-/

namespace ParadigmScan

theorem Node.sizeEntries_eq_sum (entries : List (String × Node)) :
    sizeEntries entries = (entries.map (·.2.size)).sum := by
  induction entries with
  | nil => rfl
  | cons entry entries ih => simp [sizeEntries, ih]

namespace Listing

open Node (byName mem_byName)

def takes (options : Options) (kind : EntryKind) (accepts : String → Bool) (names : List String)
    (entry : String × Node) : Bool :=
  EntryKind.ofNode entry.2 == kind && accepts entry.1 &&
    !isExcluded options.patterns (relativeText (names ++ [entry.1]))

def takesFile (options : Options) : List String → String × Node → Bool :=
  takes options .file isSourceFile

def takesDirectory (options : Options) : List String → String × Node → Bool :=
  takes options .directory (!options.skipped.contains ·)

def walk (options : Options) (listable : List String → Bool) (names : List String) (node : Node) :
    List (List String) :=
  match node with
  | .directory entries =>
    if listable names then
      ((byName entries).filter (takesFile options names)).map (names ++ [·.1]) ++
        ((byName entries).filter (takesDirectory options names)).attach.flatMap fun ⟨entry, _⟩ =>
          walk options listable (names ++ [entry.1]) entry.2
    else
      []
  | _ => []
termination_by node.size
decreasing_by
  next h => exact Node.size_lt_of_mem (mem_byName.mp (List.mem_filter.mp h).1)

def visits (options : Options) (listable : List String → Bool) (names : List String) (node : Node) :
    List (List String) :=
  match node with
  | .directory entries =>
    if listable names then
      names :: ((byName entries).filter (takesDirectory options names)).attach.flatMap
        fun ⟨entry, _⟩ => visits options listable (names ++ [entry.1]) entry.2
    else
      [names]
  | _ => [names]
termination_by node.size
decreasing_by
  next h => exact Node.size_lt_of_mem (mem_byName.mp (List.mem_filter.mp h).1)

theorem takesFile_iff {options : Options} {names : List String} {entry : String × Node} :
    takesFile options names entry = true ↔
      ∃ bytes, entry.2 = .file bytes ∧ isSourceFile entry.1 = true ∧
        isExcluded options.patterns (relativeText (names ++ [entry.1])) = false := by
  obtain ⟨name, node⟩ := entry
  cases node <;> simp [takesFile, takes, EntryKind.ofNode]

theorem takesDirectory_iff {options : Options} {names : List String} {entry : String × Node} :
    takesDirectory options names entry = true ↔
      ∃ entries, entry.2 = .directory entries ∧ entry.1 ∉ options.skipped ∧
        isExcluded options.patterns (relativeText (names ++ [entry.1])) = false := by
  obtain ⟨name, node⟩ := entry
  cases node <;> simp [takesDirectory, takes, EntryKind.ofNode]

theorem isDirectory_of_takesDirectory {options : Options} {names : List String}
    {entry : String × Node} (h : takesDirectory options names entry = true) :
    ∃ name entries, entry = (name, .directory entries) := by
  obtain ⟨entries, hentries, -⟩ := takesDirectory_iff.mp h
  exact ⟨entry.1, entries, by rw [← hentries]⟩

section

variable (options : Options) (listable : List String → Bool) (names : List String)

theorem walk_directory (entries : List (String × Node)) :
    walk options listable names (.directory entries) =
      if listable names then
        ((byName entries).filter (takesFile options names)).map (names ++ [·.1]) ++
          ((byName entries).filter (takesDirectory options names)).flatMap fun entry =>
            walk options listable (names ++ [entry.1]) entry.2
      else
        [] := by
  rw [walk]
  simp only [List.flatMap_subtype, List.unattach_attach]

theorem visits_directory (entries : List (String × Node)) :
    visits options listable names (.directory entries) =
      if listable names then
        names :: ((byName entries).filter (takesDirectory options names)).flatMap fun entry =>
          visits options listable (names ++ [entry.1]) entry.2
      else
        [names] := by
  rw [visits]
  simp only [List.flatMap_subtype, List.unattach_attach]

theorem length_visits_le (names : List String) (node : Node) :
    (visits options listable names node).length ≤ node.size := by
  cases node with
  | file | link | special => simp [visits, Node.size]
  | directory entries =>
    induction entries using Node.directory_induction generalizing names with
    | step entries ih =>
      rw [visits_directory]
      split
      . rw [List.length_cons]
        rw [List.length_flatMap]
        rw [Node.size]
        rw [Node.sizeEntries_eq_sum]
        have hsublist : ((byName entries).filter (takesDirectory options names)).Sublist
            (byName entries) := List.filter_sublist
        have hsum : ((byName entries).map (·.2.size)).sum = (entries.map (·.2.size)).sum :=
          ((Node.byName_perm entries).map _).sum_eq
        -- Only some of the entries are entered, but the sizes of all of them make up the size.
        have hbelow : (((byName entries).filter (takesDirectory options names)).map fun entry =>
            (visits options listable (names ++ [entry.1]) entry.2).length).sum ≤
            (((byName entries).filter (takesDirectory options names)).map (·.2.size)).sum := by
          apply List.sum_le_sum
          intro entry hentry
          obtain ⟨hmem, htakes⟩ := List.mem_filter.mp hentry
          obtain ⟨name, below, rfl⟩ := isDirectory_of_takesDirectory htakes
          exact ih name below (mem_byName.mp hmem) (names ++ [name])
        have htotal := (hsublist.map (·.2.size)).sum_le_sum (by simp)
        omega
      . simp [Node.size]

end

def listable (host : Host) (top : Path) (names : List String) : Bool :=
  (host.listEntries (top.descend names)).isOk

/--
What the top leads to. A top that leads nowhere is as good as one that is no directory.
-/
def topNode (host : Host) (top : Path) : Node :=
  match host.resolve top.text with
  | .ok node => node
  | .error _ => .special

variable {host : Host} {options : Options} {top : Path}

theorem listable_iff {names : List String} :
    listable host top names = true ↔
      host.isDenied (top.descend names) = false ∧
        ∃ entries, host.resolve (top.descend names).text = .ok (.directory entries) := by
  unfold listable
  cases hfound : host.listEntries (top.descend names) with
  | error error =>
    simp only [Except.isOk, Except.toBool, Bool.false_eq_true, false_iff, not_and, not_exists]
    intro hdenied entries hresolve
    have := Host.listEntries_eq_ok_iff.mpr ⟨hdenied, entries, hresolve, rfl⟩
    simp [hfound] at this
  | ok found =>
    obtain ⟨hdenied, entries, hresolve, -⟩ := Host.listEntries_eq_ok_iff.mp hfound
    simp [Except.isOk, Except.toBool, hdenied, hresolve]

theorem size_topNode_le (hhost : host.WellFormed) :
    (topNode host top).size ≤ host.tree.size + 1 := by
  unfold topNode
  split
  . next node hresolve =>
    obtain ⟨-, location, hfollow, rfl⟩ := Host.resolve_eq_ok_iff.mp hresolve
    have := (Host.isLocation_follow hhost hfollow).size_le
    omega
  . simp [Node.size]

theorem wellFormed_topNode (hhost : host.WellFormed) : (topNode host top).WellFormed := by
  unfold topNode
  split
  . next node hresolve =>
    obtain ⟨-, location, hfollow, rfl⟩ := Host.resolve_eq_ok_iff.mp hresolve
    exact (Host.isLocation_follow hhost hfollow).wellFormed hhost
  . trivial

theorem topNode_eq {node : Node} (h : host.resolve top.text = .ok node) : topNode host top = node := by
  simp only [topNode, h]

theorem wellFormed_of_resolve (hhost : host.WellFormed) {node : Node}
    (h : host.resolve top.text = .ok node) : node.WellFormed := by
  rw [← topNode_eq h]
  exact wellFormed_topNode hhost

theorem resolve_of_descend?_topNode {names : List String} {entries : List (String × Node)}
    (h : (topNode host top).descend? names = some (.directory entries)) :
    host.resolve top.text = .ok (topNode host top) := by
  unfold topNode at h ⊢
  cases hresolve : host.resolve top.text with
  | ok node => rfl
  | error error =>
    rw [hresolve] at h
    cases names with
    | nil => simp [Node.descend?] at h
    | cons name names => simp [Node.descend?, Node.child?, Node.entries] at h

theorem listable_nil_of_topNode (h : (topNode host top).isDirectory = false) :
    listable host top [] = false := by
  unfold listable
  rw [Path.descend_nil]
  cases hfound : host.listEntries top with
  | error error => rfl
  | ok found =>
    obtain ⟨-, entries, hresolve, -⟩ := Host.listEntries_eq_ok_iff.mp hfound
    simp [topNode, hresolve, Node.isDirectory] at h

theorem foundIn_of_not_listable {names : List String} (h : listable host top names = false)
    (kind : EntryKind) (accepts : String → Bool) :
    foundIn host options top kind accepts names = [] := by
  unfold listable at h
  unfold foundIn
  cases hfound : host.listEntries (top.descend names) with
  | error error => rfl
  | ok found => simp [hfound, Except.isOk, Except.toBool] at h

section Plain

variable (hhost : host.WellFormed) (htop : top.IsProper) (hplain : options.followLinks = false)

include hplain in
theorem entryKind_plain (path : Path) (node : Node) :
    entryKind host options path node = .ofNode node := by
  cases node <;> simp [entryKind, hplain, EntryKind.ofNode]

include hhost htop in
theorem listEntries_of_listable {names : List String} {entries : List (String × Node)}
    (hnode : (topNode host top).descend? names = some (.directory entries))
    (h : listable host top names = true) :
    host.listEntries (top.descend names) = .ok (byName entries) := by
  unfold listable at h
  cases hfound : host.listEntries (top.descend names) with
  | error error => simp [hfound, Except.isOk, Except.toBool] at h
  | ok found =>
    rw [Host.listEntries_descend hhost htop (resolve_of_descend?_topNode hnode) hnode hfound]

include hhost htop hplain

theorem foundIn_plain {names : List String} {entries : List (String × Node)}
    (hnode : (topNode host top).descend? names = some (.directory entries))
    (h : listable host top names = true) (kind : EntryKind) (accepts : String → Bool) :
    foundIn host options top kind accepts names =
      ((byName entries).filter (takes options kind accepts names)).map (names ++ [·.1]) := by
  unfold foundIn admitted
  simp only [listEntries_of_listable hhost htop hnode h, entryKind_plain hplain]
  rfl

theorem filesIn_plain {names : List String} {entries : List (String × Node)}
    (hnode : (topNode host top).descend? names = some (.directory entries))
    (h : listable host top names = true) :
    filesIn host options top names =
      ((byName entries).filter (takesFile options names)).map (names ++ [·.1]) :=
  foundIn_plain hhost htop hplain hnode h .file isSourceFile

theorem directoriesIn_plain {names : List String} {entries : List (String × Node)}
    (hnode : (topNode host top).descend? names = some (.directory entries))
    (h : listable host top names = true) :
    directoriesIn host options top names =
      ((byName entries).filter (takesDirectory options names)).map (names ++ [·.1]) :=
  foundIn_plain hhost htop hplain hnode h .directory (!options.skipped.contains ·)

omit hhost htop in
theorem trail_cons_plain (fuel : Nat) (names : List String) (pending entered : List (List String)) :
    trail host options top (fuel + 1) (names :: pending) entered =
      names :: trail host options top fuel (directoriesIn host options top names ++ pending) entered := by
  simp [trail, hplain]

end Plain

theorem trail_nil (fuel : Nat) (entered : List (List String)) :
    trail host options top fuel [] entered = [] := by
  cases fuel <;> rfl

theorem trail_map_append {α : Type} {start : α → List String} {below : α → List (List String)}
    {entered : List (List String)} {entries : List α}
    (h : ∀ entry ∈ entries, ∀ fuel pending,
      trail host options top ((below entry).length + fuel) (start entry :: pending) entered =
        below entry ++ trail host options top fuel pending entered)
    (fuel : Nat) (pending : List (List String)) :
    trail host options top ((entries.flatMap below).length + fuel) (entries.map start ++ pending) entered =
      entries.flatMap below ++ trail host options top fuel pending entered := by
  -- The fuel is counted exactly, so what the first entry leaves over is what the others need.
  induction entries with
  | nil => simp
  | cons entry entries ih =>
    have hentry := h entry (by simp) ((entries.flatMap below).length + fuel)
      (entries.map start ++ pending)
    rw [← Nat.add_assoc] at hentry
    simp only [List.flatMap_cons, List.length_append, List.map_cons, List.cons_append]
    rw [hentry]
    rw [ih fun other hother => h other (by simp [hother])]
    rw [List.append_assoc]

section Plain

variable (hhost : host.WellFormed) (htop : top.IsProper) (hplain : options.followLinks = false)

include hhost htop hplain

theorem trail_visits {names : List String} {entries : List (String × Node)}
    (hnode : (topNode host top).descend? names = some (.directory entries))
    (fuel : Nat) (pending entered : List (List String)) :
    trail host options top
        ((visits options (listable host top) names (.directory entries)).length + fuel)
        (names :: pending) entered =
      visits options (listable host top) names (.directory entries) ++
        trail host options top fuel pending entered := by
  induction entries using Node.directory_induction generalizing names fuel pending with
  | step entries ih =>
    rw [visits_directory]
    split
    . next hlistable =>
      rw [List.length_cons]
      rw [Nat.add_right_comm]
      rw [trail_cons_plain hplain]
      rw [directoriesIn_plain hhost htop hplain hnode hlistable]
      rw [trail_map_append]
      . rfl
      . intro entry hentry fuel pending
        obtain ⟨hmem, htakes⟩ := List.mem_filter.mp hentry
        obtain ⟨name, below, rfl⟩ := isDirectory_of_takesDirectory htakes
        have hmem := mem_byName.mp hmem
        have hbelow := (wellFormed_topNode hhost).descend?_concat_of_mem hnode hmem
        exact ih name below hmem hbelow fuel pending
    . next hlistable =>
      rw [List.length_singleton]
      rw [Nat.add_comm]
      rw [trail_cons_plain hplain]
      rw [directoriesIn, foundIn_of_not_listable (by simpa using hlistable)]
      rfl

theorem trail_eq_visits {fuel : Nat} (hfuel : (topNode host top).size ≤ fuel) :
    trail host options top fuel [[]] [] =
      visits options (listable host top) [] (topNode host top) := by
  have hlength := length_visits_le options (listable host top) [] (topNode host top)
  cases hnode : topNode host top with
  | directory entries =>
    rw [hnode] at hlength hfuel
    obtain ⟨more, rfl⟩ := Nat.le.dest (Nat.le_trans hlength hfuel)
    rw [trail_visits hhost htop hplain (by simp [hnode, Node.descend?])]
    rw [trail_nil]
    rw [List.append_nil]
  | file | link | special =>
    have hlistable : listable host top [] = false := by
      apply listable_nil_of_topNode
      simp [hnode, Node.isDirectory]
    cases fuel with
    | zero => simp [hnode, Node.size] at hfuel
    | succ fuel =>
      rw [trail_cons_plain hplain]
      rw [directoriesIn, foundIn_of_not_listable hlistable]
      rw [List.nil_append]
      rw [trail_nil]
      simp [visits]

theorem flatMap_visits_eq_walk {names : List String} {entries : List (String × Node)}
    (hnode : (topNode host top).descend? names = some (.directory entries)) :
    (visits options (listable host top) names (.directory entries)).flatMap
        (filesIn host options top) =
      walk options (listable host top) names (.directory entries) := by
  induction entries using Node.directory_induction generalizing names with
  | step entries ih =>
    rw [visits_directory]
    rw [walk_directory]
    split
    . next hlistable =>
      rw [List.flatMap_cons]
      rw [filesIn_plain hhost htop hplain hnode hlistable]
      rw [List.flatMap_assoc]
      congr 1
      apply List.flatMap_congr
      intro entry hentry
      obtain ⟨hmem, htakes⟩ := List.mem_filter.mp hentry
      obtain ⟨name, below, rfl⟩ := isDirectory_of_takesDirectory htakes
      have hmem := mem_byName.mp hmem
      have hbelow := (wellFormed_topNode hhost).descend?_concat_of_mem hnode hmem
      exact ih name below hmem hbelow
    . next hlistable =>
      rw [List.flatMap_singleton]
      exact foundIn_of_not_listable (by simpa using hlistable) _ _

theorem flatMap_tour_eq_walk :
    (tour host options top).flatMap (filesIn host options top) =
      walk options (listable host top) [] (topNode host top) := by
  unfold tour
  rw [trail_eq_visits hhost htop hplain (size_topNode_le hhost)]
  cases hnode : topNode host top with
  | directory entries =>
    exact flatMap_visits_eq_walk hhost htop hplain (by simp [hnode, Node.descend?])
  | file | link | special =>
    have hlistable : listable host top [] = false := by
      apply listable_nil_of_topNode
      simp [hnode, Node.isDirectory]
    simp [visits, walk, filesIn, foundIn_of_not_listable hlistable]

end Plain

end Listing

end ParadigmScan
