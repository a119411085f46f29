import ParadigmScan.Proofs.FileTree.Checks
import ParadigmScan.Proofs.Listing.Filtering
import ParadigmScan.Proofs.Listing.LinkFree

/-!
This module contains what of a directory can make a difference to a listing that follows no links. What is left out
below the directory can be taken away without a change.
-/

namespace ParadigmScan

namespace Listing

open Node (byName mem_byName)

/--
Whether an entry below the top is left out. Whatever it is, a path that contains a pattern is; apart from that it
depends on the name for files and directories, and everything else is left out.
-/
def isLeftOut (patterns : List String) (names : List String) (entry : String × Node) : Bool :=
  decide (ContainsPattern patterns (relativeText (names ++ [entry.1]))) ||
    match entry.2 with
    | .file _ => !isSourceFile entry.1
    | .directory _ => skippedDirectories.contains entry.1
    | .link _ | .special => true

/--
What remains of a node if everything that is left out below it is taken away. The order in which a directory holds its
entries is no part of that.
-/
def visible (patterns : List String) (names : List String) (node : Node) : Node :=
  match node with
  | .directory entries =>
    .directory (((byName entries).filter (!isLeftOut patterns names ·)).attach.map fun ⟨entry, _⟩ =>
      (entry.1, visible patterns (names ++ [entry.1]) entry.2))
  | .file bytes => .file bytes
  | .link target => .link target
  | .special => .special
termination_by node.size
decreasing_by
  next h => exact Node.size_lt_of_mem (mem_byName.mp (List.mem_filter.mp h).1)

def visibleEntries (patterns : List String) (names : List String) (entries : List (String × Node)) :
    List (String × Node) :=
  ((byName entries).filter (!isLeftOut patterns names ·)).map fun entry =>
    (entry.1, visible patterns (names ++ [entry.1]) entry.2)

section

variable (patterns names : List String)

theorem visible_directory (entries : List (String × Node)) :
    visible patterns names (.directory entries) = .directory (visibleEntries patterns names entries) := by
  rw [visible]
  unfold visibleEntries
  congr 1
  simp only [List.map_subtype, List.unattach_attach]

theorem visible_eq_file_iff {node : Node} {bytes : List UInt8} :
    visible patterns names node = .file bytes ↔ node = .file bytes := by
  cases node <;> simp [visible, visible_directory]

theorem visible_eq_directory {node : Node} {entries : List (String × Node)}
    (h : visible patterns names node = .directory entries) :
    ∃ found, node = .directory found ∧ entries = visibleEntries patterns names found := by
  cases node with
  | directory found =>
    rw [visible_directory] at h
    exact ⟨found, rfl, by simpa using h.symm⟩
  | file | link | special => simp [visible] at h

theorem ofNode_visible (node : Node) :
    EntryKind.ofNode (visible patterns names node) = EntryKind.ofNode node := by
  cases node <;> simp [visible, visible_directory, EntryKind.ofNode]

theorem isDirectory_visible (node : Node) :
    (visible patterns names node).isDirectory = node.isDirectory := by
  cases node <;> simp [visible, visible_directory, Node.isDirectory]

theorem map_fst_visibleEntries (entries : List (String × Node)) :
    (visibleEntries patterns names entries).map (·.1) =
      ((byName entries).filter (!isLeftOut patterns names ·)).map (·.1) := by
  unfold visibleEntries
  rw [List.map_map]
  rfl

theorem byName_visibleEntries (entries : List (String × Node)) :
    byName (visibleEntries patterns names entries) = visibleEntries patterns names entries := by
  apply List.mergeSort_of_pairwise
  have hsorted : ((visibleEntries patterns names entries).map (·.1)).Pairwise (· ≤ ·) := by
    rw [map_fst_visibleEntries]
    exact (Node.byName_pairwise entries).sublist (List.filter_sublist.map _)
  rw [List.pairwise_map] at hsorted
  simpa using hsorted

end

theorem wellFormed_visible {patterns names : List String} {node : Node} (hnode : node.WellFormed) :
    (visible patterns names node).WellFormed := by
  cases node with
  | file | link | special => simp [visible, Node.WellFormed]
  | directory entries =>
    induction entries using Node.directory_induction generalizing names with
    | step entries ih =>
      rw [visible_directory]
      rw [Node.WellFormed]
      constructor
      . rw [map_fst_visibleEntries]
        exact nodup_names_filter hnode _
      . rw [Node.wellFormedEntries_iff]
        intro shown hshown
        obtain ⟨entry, hentry, rfl⟩ := List.mem_map.mp hshown
        have hmem := mem_byName.mp (List.mem_filter.mp hentry).1
        have hname := hnode.isName hmem
        refine ⟨hname, ?_⟩
        obtain ⟨name, node⟩ := entry
        cases node with
        | file | link | special => simp [visible, Node.WellFormed]
        | directory below => exact ih name below hmem (hnode.entry hmem)

theorem descend?_of_visible {patterns names path : List String} {node shown : Node}
    (hnode : node.WellFormed) (h : (visible patterns names node).descend? path = some shown) :
    ∃ below, node.descend? path = some below ∧ visible patterns (names ++ path) below = shown := by
  induction path generalizing names node with
  | nil =>
    simp only [Node.descend?, Option.some.injEq] at h
    exact ⟨node, rfl, by simpa using h⟩
  | cons name path ih =>
    obtain ⟨child, hchild, hbelow⟩ := Option.bind_eq_some_iff.mp h
    obtain ⟨entries, hentries, hmem⟩ := Node.child?_eq_some hchild
    obtain ⟨found, rfl, rfl⟩ := visible_eq_directory patterns names hentries
    obtain ⟨entry, hentry, heq⟩ := List.mem_map.mp hmem
    obtain ⟨rfl, rfl⟩ := Prod.mk.inj heq
    have hmem := mem_byName.mp (List.mem_filter.mp hentry).1
    obtain ⟨below, hdescend, hvisible⟩ := ih (hnode.entry hmem) hbelow
    refine ⟨below, ?_, by simpa using hvisible⟩
    rw [Node.descend?]
    rw [hnode.child?_eq_some_iff.mpr hmem]
    exact hdescend

section Options

variable {options : Options} {patterns : List String}
  (hpatterns : isExcluded options.patterns = isExcluded patterns)
  (hskipped : options.skipped = skippedDirectories)

include hpatterns in
theorem not_isLeftOut_of_takesFile {names : List String} {entry : String × Node}
    (h : takesFile options names entry = true) : isLeftOut patterns names entry = false := by
  obtain ⟨bytes, hentry, hsource, hclean⟩ := takesFile_iff.mp h
  unfold isLeftOut
  rw [decide_containsPattern]
  rw [← hpatterns]
  rw [hclean]
  rw [hentry]
  simp [hsource]

include hpatterns hskipped in
theorem not_isLeftOut_of_takesDirectory {names : List String} {entry : String × Node}
    (h : takesDirectory options names entry = true) : isLeftOut patterns names entry = false := by
  obtain ⟨entries, hentry, hentered, hclean⟩ := takesDirectory_iff.mp h
  unfold isLeftOut
  rw [decide_containsPattern]
  rw [← hpatterns]
  rw [hclean]
  rw [hentry]
  rw [hskipped] at hentered
  simpa using hentered

theorem filter_takes_visibleEntries {kind : EntryKind} {accepts : String → Bool} {names : List String}
    (htakes : ∀ entry, takes options kind accepts names entry = true →
      isLeftOut patterns names entry = false) (entries : List (String × Node)) :
    (visibleEntries patterns names entries).filter (takes options kind accepts names) =
      ((byName entries).filter (takes options kind accepts names)).map fun entry =>
        (entry.1, visible patterns (names ++ [entry.1]) entry.2) := by
  unfold visibleEntries
  rw [List.filter_map]
  rw [List.filter_filter]
  congr 1
  apply List.filter_congr
  intro entry _
  have hsame : takes options kind accepts names
      (entry.1, visible patterns (names ++ [entry.1]) entry.2) =
        takes options kind accepts names entry := by
    unfold takes
    rw [ofNode_visible]
  simp only [Function.comp_apply, hsame]
  cases hentry : takes options kind accepts names entry with
  | true => simp [htakes entry hentry]
  | false => rfl

include hpatterns hskipped

theorem visits_visible (listable : List String → Bool) (names : List String) (node : Node) :
    visits options listable names (visible patterns names node) =
      visits options listable names node := by
  cases node with
  | file | link | special => simp [visits, visible]
  | directory entries =>
    induction entries using Node.directory_induction generalizing names with
    | step entries ih =>
      rw [visible_directory]
      rw [visits_directory]
      rw [visits_directory]
      rw [byName_visibleEntries]
      split
      . congr 1
        unfold takesDirectory
        rw [filter_takes_visibleEntries fun entry => not_isLeftOut_of_takesDirectory hpatterns hskipped]
        rw [List.flatMap_map]
        apply List.flatMap_congr
        intro entry hentry
        obtain ⟨hmem, htakes⟩ := List.mem_filter.mp hentry
        obtain ⟨name, below, rfl⟩ := isDirectory_of_takesDirectory htakes
        exact ih name below (mem_byName.mp hmem) (names ++ [name])
      . rfl

end Options

theorem visits_congr {options : Options} {listable listable' : List String → Bool}
    {names : List String} {node : Node} (hnode : node.WellFormed)
    (h : ∀ path entries, node.descend? path = some (.directory entries) →
      listable (names ++ path) = listable' (names ++ path)) :
    visits options listable names node = visits options listable' names node := by
  cases node with
  | file | link | special => simp [visits]
  | directory entries =>
    induction entries using Node.directory_induction generalizing names with
    | step entries ih =>
      have hhere := h [] entries rfl
      rw [List.append_nil] at hhere
      rw [visits_directory]
      rw [visits_directory]
      rw [hhere]
      split
      . congr 1
        apply List.flatMap_congr
        intro entry hentry
        obtain ⟨hmem, htakes⟩ := List.mem_filter.mp hentry
        obtain ⟨name, below, rfl⟩ := isDirectory_of_takesDirectory htakes
        have hmem := mem_byName.mp hmem
        apply ih name below hmem (hnode.entry hmem)
        intro path found hfound
        rw [List.append_assoc]
        apply h (name :: path) found
        rw [Node.descend?]
        rw [hnode.child?_eq_some_iff.mpr hmem]
        exact hfound
      . rfl

end Listing

end ParadigmScan
