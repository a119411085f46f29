import ParadigmScan.Proofs.FileTree.Checks
import ParadigmScan.Proofs.Listing.Filtering
import ParadigmScan.Proofs.Listing.LinkFree

/-!
This module contains that a directory is listed as a part of the directory above it in the same way as on its own, if no
pattern reaches over a slash.
-/

namespace ParadigmScan

namespace Listing

open Node (byName mem_byName)

section Under

variable {options : Options} {before : List String}
  (hslash : ∀ pattern ∈ options.patterns, '/' ∉ pattern.toList)
  (hbefore : ∀ name ∈ before, isExcluded options.patterns name = false)

include hslash hbefore

theorem isExcluded_under (names : List String) :
    isExcluded options.patterns (relativeText (before ++ names)) =
      isExcluded options.patterns (relativeText names) := by
  rw [Bool.eq_iff_iff]
  rw [isExcluded_relativeText_iff hslash]
  rw [isExcluded_relativeText_iff hslash]
  constructor
  . rintro ⟨name, hname, hexcluded⟩
    rcases List.mem_append.mp hname with hname | hname
    . rw [hbefore name hname] at hexcluded
      contradiction
    . exact ⟨name, hname, hexcluded⟩
  . rintro ⟨name, hname, hexcluded⟩
    exact ⟨name, List.mem_append_right before hname, hexcluded⟩

theorem takes_under (kind : EntryKind) (accepts : String → Bool) (names : List String) :
    takes options kind accepts (before ++ names) = takes options kind accepts names := by
  funext entry
  unfold takes
  rw [List.append_assoc]
  rw [isExcluded_under hslash hbefore]

theorem walk_under (listable : List String → Bool) (names : List String) (node : Node) :
    walk options listable (before ++ names) node =
      (walk options (fun names => listable (before ++ names)) names node).map (before ++ ·) := by
  cases node with
  | file | link | special => simp [walk]
  | directory entries =>
    induction entries using Node.directory_induction generalizing names with
    | step entries ih =>
      rw [walk_directory]
      rw [walk_directory]
      split
      . rw [List.map_append]
        rw [List.map_flatMap]
        rw [List.map_map]
        unfold takesFile takesDirectory
        rw [takes_under hslash hbefore]
        rw [takes_under hslash hbefore]
        congr 1
        . apply List.map_congr_left
          intro entry _
          simp
        . apply List.flatMap_congr
          intro entry hentry
          obtain ⟨hmem, htakes⟩ := List.mem_filter.mp hentry
          obtain ⟨name, below, rfl⟩ := isDirectory_of_takesDirectory htakes
          rw [List.append_assoc]
          exact ih name below (mem_byName.mp hmem) (names ++ [name])
      . rfl

end Under

variable {host : Host} {options : Options} {top : Path}

theorem listable_descend (before names : List String) :
    listable host (top.descend before) names = listable host top (before ++ names) := by
  unfold listable
  rw [Path.descend_descend]

theorem listable_of_not_permits {names : List String}
    (hpermits : ¬ host.Permits (top.descend names).text) : listable host top names = false := by
  rw [Bool.eq_false_iff]
  intro hlistable
  obtain ⟨-, entries, hresolve⟩ := listable_iff.mp hlistable
  exact hpermits (Host.resolve_eq_ok_iff.mp hresolve).1

section Plain

variable (hhost : host.WellFormed) (htop : top.IsProper) (hplain : options.followLinks = false)

include hhost htop

theorem resolve_child {entries : List (String × Node)} {name : String} {child : Node}
    (hroot : host.resolve top.text = .ok (.directory entries)) (hmem : (name, child) ∈ entries)
    (hlink : child.isLink = false)
    (hpermits : host.Permits (top.descend [name]).text) :
    host.resolve (top.descend [name]).text = .ok child := by
  have hwellFormed := wellFormed_of_resolve hhost hroot
  have hchild : (Node.directory entries).descend? [name] = some child := by
    simpa [Node.descend?] using hwellFormed.child?_eq_some_iff.mpr hmem
  exact Host.resolve_descend hhost htop hroot hchild hlink hpermits

include hplain

theorem list_eq_walk :
    list host options top =
      ((walk options (listable host top) [] (topNode host top)).map top.descend,
        (visits options (listable host top) [] (topNode host top)).flatMap (refusalIn host top)) := by
  rw [list_eq]
  rw [flatMap_tour_eq_walk hhost htop hplain]
  rw [tour_eq_visits hhost htop hplain]

theorem list_child (hslash : ∀ pattern ∈ options.patterns, '/' ∉ pattern.toList)
    {entries below : List (String × Node)} {name : String}
    (hroot : host.resolve top.text = .ok (.directory entries))
    (hmem : (name, .directory below) ∈ entries) (hclean : isExcluded options.patterns name = false)
    (hpermits : host.Permits (top.descend [name]).text) :
    (list host options (top.descend [name])).1 =
      (walk options (listable host top) [name] (.directory below)).map top.descend := by
  have hwellFormed := wellFormed_of_resolve hhost hroot
  have hproper : (top.descend [name]).IsProper := by
    apply htop.descend
    simpa using (hwellFormed.isName hmem).toIsStep
  have hchild := topNode_eq (resolve_child hhost htop hroot hmem rfl hpermits)
  have hlistable : listable host (top.descend [name]) =
      fun names => listable host top ([name] ++ names) := by
    funext names
    exact listable_descend [name] names
  have hunder := walk_under hslash (by simpa using hclean : ∀ other ∈ [name], _)
    (listable host top) [] (.directory below)
  rw [List.append_nil] at hunder
  rw [list_eq_walk hhost hproper hplain]
  rw [hchild]
  rw [hlistable]
  rw [hunder]
  rw [List.map_map]
  apply List.map_congr_left
  intro names _
  exact Path.descend_descend top [name] names

/--
The files of a directory are its own ones and those that are listed in each of its directories on their own. A
directory with a path that cannot be looked up adds none.
-/
theorem list_directory (hslash : ∀ pattern ∈ options.patterns, '/' ∉ pattern.toList)
    {entries : List (String × Node)} (hentries : host.listEntries top = .ok entries) :
    (list host options top).1 =
      (entries.filter (takesFile options [])).map (fun entry => top.descend [entry.1]) ++
        (entries.filter (takesDirectory options [])).flatMap fun entry =>
          if host.Permits (top.descend [entry.1]).text then
            (list host options (top.descend [entry.1])).1
          else
            [] := by
  obtain ⟨-, entries, hroot, rfl⟩ := Host.listEntries_eq_ok_iff.mp hentries
  have hlistable : listable host top [] = true := by
    unfold listable
    rw [Path.descend_nil]
    rw [hentries]
    rfl
  rw [list_eq_walk hhost htop hplain]
  rw [topNode_eq hroot]
  rw [walk_directory]
  rw [if_pos hlistable]
  simp only [List.map_append, List.map_flatMap, List.map_map]
  congr 1
  apply List.flatMap_congr
  intro entry hentry
  obtain ⟨hmem, htakes⟩ := List.mem_filter.mp hentry
  obtain ⟨name, child⟩ := entry
  obtain ⟨below, rfl, -, hclean⟩ := takesDirectory_iff.mp htakes
  have hclean : isExcluded options.patterns name = false := by
    simpa [relativeText] using hclean
  split
  . next hpermits =>
    rw [list_child hhost htop hplain hslash hroot (mem_byName.mp hmem) hclean hpermits]
    rfl
  . next hpermits =>
    have hunlisted : listable host top [name] = false := listable_of_not_permits hpermits
    rw [walk_directory]
    rw [if_neg (by simp [hunlisted])]
    rfl

end Plain

end Listing

end ParadigmScan
