import Mathlib
import ParadigmScan.Proofs.Listing.Arrangement
import ParadigmScan.Proofs.Listing.Order

/-!
This module contains which files a listing finds that follows no links, stated by the names that lead to
them.
-/

namespace ParadigmScan

namespace Listing

open Node (byName mem_byName)

/--
The file that `path` leads to from a directory is listed, where the directory itself is reached from the
top by `names`.
-/
structure IsListed (options : Options) (listable : List String → Bool) (names : List String)
    (node : Node) (path : List String) : Prop where
  /-- It is a regular file itself. -/
  file : ∃ bytes, node.descend? path = some (.file bytes)
  /-- Its name is that of a source file. -/
  source : ∃ name, path.getLast? = some name ∧ isSourceFile name = true
  /-- What is passed on the way are directories themselves, and none has a name to be skipped. -/
  directories : ∀ before name behind, path = before ++ name :: behind → behind ≠ [] →
    (∃ entries, node.descend? (before ++ [name]) = some (.directory entries)) ∧
      name ∉ options.skipped
  /-- The directory can be read, and so can those on the way. -/
  listable : ∀ before behind, path = before ++ behind → behind ≠ [] →
    listable (names ++ before) = true
  /-- No pattern that is not empty is part of the whole path from the top. -/
  clean : ∀ pattern ∈ options.patterns, pattern ≠ "" →
    ¬ pattern.toList <:+: (relativeText (names ++ path)).toList

variable {options : Options} {listable : List String → Bool} {names : List String} {node : Node}
  {entries : List (String × Node)}

theorem IsListed.ne_nil {path : List String} (h : IsListed options listable names node path) :
    path ≠ [] := by
  obtain ⟨name, hlast, -⟩ := h.source
  rintro rfl
  simp at hlast

theorem isListed_singleton {name : String} :
    IsListed options listable names node [name] ↔
      listable names = true ∧ ∃ bytes, node.child? name = some (.file bytes) ∧
        isSourceFile name = true ∧
        isExcluded options.patterns (relativeText (names ++ [name])) = false := by
  have hdescend : node.descend? [name] = node.child? name := by simp [Node.descend?]
  rw [isExcluded_eq_false_iff]
  constructor
  . intro h
    obtain ⟨bytes, hbytes⟩ := h.file
    have hsource := h.source
    have hlistable := h.listable [] [name] rfl (by simp)
    rw [List.append_nil] at hlistable
    rw [hdescend] at hbytes
    exact ⟨hlistable, bytes, hbytes, by simpa using hsource, h.clean⟩
  . rintro ⟨hlistable, bytes, hbytes, hsource, hclean⟩
    refine ⟨⟨bytes, hdescend.trans hbytes⟩, ⟨name, rfl, hsource⟩, ?_, ?_, hclean⟩
    . intro before name' behind heq hne
      cases before <;> simp_all
    . intro before behind heq hne
      cases before with
      | nil => simpa using hlistable
      | cons => simp_all

theorem isListed_cons {name : String} {path : List String} (hne : path ≠ []) :
    IsListed options listable names node (name :: path) ↔
      listable names = true ∧ name ∉ options.skipped ∧ ∃ entries,
        node.child? name = some (.directory entries) ∧
        IsListed options listable (names ++ [name]) (.directory entries) path := by
  have hdescend : ∀ below, node.descend? (name :: below) =
      (node.child? name).bind (·.descend? below) := fun below => rfl
  constructor
  . intro h
    obtain ⟨⟨entries, hentries⟩, hskipped⟩ := h.directories [] name path rfl hne
    have hlistable := h.listable [] (name :: path) rfl (by simp)
    rw [List.append_nil] at hlistable
    have hchild : node.child? name = some (.directory entries) := by
      simpa [Node.descend?] using hentries
    refine ⟨hlistable, hskipped, entries, hchild, ?_, ?_, ?_, ?_, ?_⟩
    . simpa [hdescend, hchild] using h.file
    . simpa [List.getLast?_cons_of_ne_nil hne] using h.source
    . intro before name' behind heq hne'
      simpa [hdescend, hchild] using h.directories (name :: before) name' behind (by simp [heq]) hne'
    . intro before behind heq hne'
      simpa using h.listable (name :: before) behind (by simp [heq]) hne'
    . simpa using h.clean
  . rintro ⟨hlistable, hskipped, entries, hchild, h⟩
    refine ⟨?_, ?_, ?_, ?_, ?_⟩
    . simpa [hdescend, hchild] using h.file
    . simpa [List.getLast?_cons_of_ne_nil hne] using h.source
    . intro before name' behind heq hne'
      cases before with
      | nil =>
        simp only [List.nil_append, List.cons.injEq] at heq
        obtain ⟨rfl, -⟩ := heq
        exact ⟨⟨entries, by simp [Node.descend?, hchild]⟩, hskipped⟩
      | cons first before =>
        simp only [List.cons_append, List.cons.injEq] at heq
        obtain ⟨rfl, heq⟩ := heq
        simpa [hdescend, hchild] using h.directories before name' behind heq hne'
    . intro before behind heq hne'
      cases before with
      | nil => simpa using hlistable
      | cons first before =>
        simp only [List.cons_append, List.cons.injEq] at heq
        obtain ⟨rfl, heq⟩ := heq
        simpa using h.listable before behind heq hne'
    . simpa using h.clean

theorem not_isListed_of_isDirectory (h : node.isDirectory = false) (path : List String) :
    ¬ IsListed options listable names node path := by
  intro hlisted
  obtain ⟨bytes, hbytes⟩ := hlisted.file
  cases path with
  | nil => exact hlisted.ne_nil rfl
  | cons name path =>
    obtain ⟨child, hchild, -⟩ := Option.bind_eq_some_iff.mp hbytes
    obtain ⟨entries, rfl, -⟩ := Node.child?_eq_some hchild
    simp [Node.isDirectory] at h

theorem IsListed.listable_here {path : List String}
    (h : IsListed options listable names node path) : listable names = true := by
  have := h.listable [] path rfl h.ne_nil
  rwa [List.append_nil] at this

theorem mem_walk (hnode : node.WellFormed) {found : List String} :
    found ∈ walk options listable names node ↔
      ∃ path, found = names ++ path ∧ IsListed options listable names node path := by
  cases node with
  | file | link | special =>
    simp only [walk, List.not_mem_nil, false_iff, not_exists, not_and]
    exact fun path _ => not_isListed_of_isDirectory rfl path
  | directory entries =>
    induction entries using Node.directory_induction generalizing names with
    | step entries ih =>
      rw [walk_directory]
      split
      . next hlistable =>
        simp only [List.mem_append, List.mem_map, List.mem_flatMap, List.mem_filter, mem_byName,
          takesFile_iff, takesDirectory_iff]
        constructor
        . rintro (⟨⟨name, node⟩, ⟨hmem, bytes, rfl, hsource, hclean⟩, rfl⟩ |
            ⟨⟨name, node⟩, ⟨hmem, below, rfl, hskipped, hclean⟩, hfound⟩)
          . refine ⟨[name], rfl, isListed_singleton.mpr ⟨hlistable, bytes, ?_, hsource, hclean⟩⟩
            exact hnode.child?_eq_some_iff.mpr hmem
          . obtain ⟨path, rfl, hpath⟩ := (ih name below hmem (hnode.entry hmem)).mp hfound
            refine ⟨name :: path, by simp, (isListed_cons hpath.ne_nil).mpr ?_⟩
            exact ⟨hlistable, hskipped, below, hnode.child?_eq_some_iff.mpr hmem, hpath⟩
        . rintro ⟨path, rfl, hpath⟩
          cases path with
          | nil => exact absurd rfl hpath.ne_nil
          | cons name path =>
            have hclean := isExcluded_eq_false_iff.mpr hpath.clean
            by_cases hne : path = []
            . subst hne
              obtain ⟨-, bytes, hchild, hsource, -⟩ := isListed_singleton.mp hpath
              have hmem := hnode.child?_eq_some_iff.mp hchild
              exact Or.inl ⟨(name, .file bytes), ⟨hmem, bytes, rfl, hsource, hclean⟩, rfl⟩
            . obtain ⟨-, hskipped, below, hchild, hbelow⟩ := (isListed_cons hne).mp hpath
              have hmem := hnode.child?_eq_some_iff.mp hchild
              have hfound := (ih name below hmem (hnode.entry hmem)).mpr ⟨path, by simp, hbelow⟩
              -- What is excluded on the way would be excluded at its end as well.
              rw [← List.singleton_append] at hclean
              rw [← List.append_assoc] at hclean
              have hclean := isExcluded_relativeText_append hclean
              refine Or.inr ⟨(name, .directory below), ⟨hmem, below, rfl, hskipped, hclean⟩, hfound⟩
      . next hlistable =>
        have : ∀ path, ¬ IsListed options listable names (.directory entries) path :=
          fun path hpath => hlistable hpath.listable_here
        simp [this]

theorem nodup_names_filter (hnode : (Node.directory entries).WellFormed) (p : String × Node → Bool) :
    (((byName entries).filter p).map (·.1)).Nodup := by
  have hperm : ((byName entries).map (·.1)).Nodup :=
    ((Node.byName_perm entries).map _).nodup_iff.mpr hnode.nodup
  exact hperm.sublist (List.filter_sublist.map _)

theorem exists_of_mem_walk (hnode : node.WellFormed) {name : String} {found : List String}
    (h : found ∈ walk options listable (names ++ [name]) node) :
    ∃ path, path ≠ [] ∧ found = names ++ name :: path := by
  obtain ⟨path, rfl, hpath⟩ := (mem_walk hnode).mp h
  exact ⟨path, hpath.ne_nil, by simp⟩

theorem nodup_walk (hnode : node.WellFormed) : (walk options listable names node).Nodup := by
  cases node with
  | file | link | special => simp [walk]
  | directory entries =>
    induction entries using Node.directory_induction generalizing names with
    | step entries ih =>
      rw [walk_directory]
      split
      . have hmem : ∀ {p} {entry}, entry ∈ (byName entries).filter p → entry.2.WellFormed :=
          fun h => hnode.entry (mem_byName.mp (List.mem_filter.mp h).1)
        rw [List.nodup_append']
        refine ⟨?_, ?_, ?_⟩
        -- Files of the directory itself differ by their names.
        . have hnames := nodup_names_filter hnode (takesFile options names)
          have hinjective : Function.Injective fun name : String => names ++ [name] := by
            intro a b h
            simpa using h
          simpa [Function.comp_def] using hnames.map hinjective
        . rw [List.nodup_flatMap]
          constructor
          . intro entry hentry
            obtain ⟨hentry, htakes⟩ := List.mem_filter.mp hentry
            obtain ⟨name, below, rfl⟩ := isDirectory_of_takesDirectory htakes
            have hentry := mem_byName.mp hentry
            exact ih name below hentry (hnode.entry hentry)
          -- Files below different directories differ by the names of these.
          . have hnames := nodup_names_filter hnode (takesDirectory options names)
            rw [List.Nodup, List.pairwise_map] at hnames
            apply hnames.imp_of_mem
            intro a b ha hb hne found hfound hfound'
            obtain ⟨path, -, rfl⟩ := exists_of_mem_walk (hmem ha) hfound
            obtain ⟨path', -, heq⟩ := exists_of_mem_walk (hmem hb) hfound'
            simp only [List.append_cancel_left_eq, List.cons.injEq] at heq
            exact hne heq.1
        . intro found hfile hbelow
          obtain ⟨file, -, rfl⟩ := List.mem_map.mp hfile
          obtain ⟨entry, hentry, hfound⟩ := List.mem_flatMap.mp hbelow
          obtain ⟨path, hne, heq⟩ := exists_of_mem_walk (hmem hentry) hfound
          simp only [List.append_cancel_left_eq, List.cons.injEq] at heq
          exact hne heq.2.symm
      . simp

section Plain

variable {host : Host} {top : Path}
variable (hhost : host.WellFormed) (htop : top.IsProper) (hplain : options.followLinks = false)

include hhost htop hplain

theorem tour_rearranged {host' : Host} (h : host.Rearranged host') :
    tour host' options top = tour host options top := by
  have hhost' := h.wellFormed hhost
  have hsize : (topNode host top).size ≤ host.tree.size + 1 := size_topNode_le hhost
  have hsize' : (topNode host' top).size ≤ host'.tree.size + 1 := size_topNode_le hhost'
  -- Nothing is known about the sizes of the two trees, but the sum of both is enough for each of them.
  let fuel := host.tree.size + 1 + (host'.tree.size + 1)
  unfold tour
  rw [trail_eq_visits hhost htop hplain hsize]
  rw [trail_eq_visits hhost' htop hplain hsize']
  rw [← trail_eq_visits hhost htop hplain (show _ ≤ fuel by omega)]
  rw [← trail_eq_visits hhost' htop hplain (show _ ≤ fuel by omega)]
  rw [trail_rearranged h]

theorem list_rearranged {host' : Host} (h : host.Rearranged host') :
    list host' options top = list host options top := by
  have hrefusal : refusalIn host' top = refusalIn host top :=
    (funext (refusalIn_rearranged h top)).symm
  rw [list_eq]
  rw [list_eq]
  rw [tour_rearranged hhost htop hplain h]
  rw [filesIn_rearranged h]
  rw [hrefusal]

theorem list?_eq_walk :
    list? host options top =
      if Path.hasNul top.text then .error .nulInPath
      else .ok ((walk options (Listing.listable host top) [] (topNode host top)).map top.descend,
        (tour host options top).flatMap (refusalIn host top)) := by
  unfold list?
  rw [list_eq]
  rw [flatMap_tour_eq_walk hhost htop hplain]

end Plain

/--
A listing that follows no links finds exactly the files that are to be listed, each of them once, in the
order of the recursion over the tree. The order in which directories yield their entries has no influence on
it, and neither has anything about the top except for what is below it.
-/
theorem list?_without_links {host : Host} (hhost : host.WellFormed) {options : Options}
    (hplain : options.followLinks = false) (root : String) :
    ∃ paths,
      (∃ records, list? host options (.ofText root) =
        if Path.hasNul (Path.ofText root).text then .error .nulInPath
        else .ok (paths.map (Path.ofText root).descend, records)) ∧
      (∀ path, path ∈ paths ↔
        IsListed options (Listing.listable host (.ofText root)) [] (topNode host (.ofText root)) path) ∧
      (paths.map (Path.ofText root).descend).Nodup ∧
      paths = walk options (Listing.listable host (.ofText root)) [] (topNode host (.ofText root)) ∧
      (∀ host', host.Rearranged host' →
        list? host' options (.ofText root) = list? host options (.ofText root)) ∧
      ∀ host' root', host'.WellFormed →
        topNode host' (.ofText root') = topNode host (.ofText root) →
        Listing.listable host' (.ofText root') = Listing.listable host (.ofText root) →
        ∃ records, list? host' options (.ofText root') =
          if Path.hasNul (Path.ofText root').text then .error .nulInPath
          else .ok (paths.map (Path.ofText root').descend, records) := by
  have hproper := Path.isProper_ofText root
  have hnode : (topNode host (.ofText root)).WellFormed := wellFormed_topNode hhost
  refine ⟨_, ⟨_, list?_eq_walk hhost hproper hplain⟩, ?_, ?_, rfl, ?_, ?_⟩
  . intro path
    simp [mem_walk hnode]
  . exact (nodup_walk hnode).map (Path.descend_injective _)
  . intro host' h
    unfold list?
    rw [list_rearranged hhost hproper hplain h]
  . intro host' root' hhost' htop hlistable
    rw [← htop]
    rw [← hlistable]
    exact ⟨_, list?_eq_walk hhost' (Path.isProper_ofText root') hplain⟩

def sampleHost : Host where
  tree := .directory [("dist", .directory [
    ("src", .directory [("b.ts", .file []), ("a.ts", .file [])]),
    ("out", .directory [("c.ts", .file [])]),
    ("alias", .link "src")])]
  cwd := []
  denied := []

theorem list?_without_links_sampleHost :
    sampleHost.WellFormed ∧ ∃ (paths : List (List String)) (records : List Log.Record),
      list? sampleHost { patterns := ["", "b."] } (.ofText "dist") =
        .ok (paths.map (Path.ofText "dist").descend, records) ∧
      ["src", "a.ts"] ∈ paths ∧ ["src", "b.ts"] ∉ paths ∧ ["out", "c.ts"] ∉ paths ∧
      ["alias", "a.ts"] ∉ paths := by
  have hhost : sampleHost.WellFormed := by
    refine ⟨?_, ⟨_, rfl⟩⟩
    simp only [sampleHost, Node.WellFormed, Node.WellFormedEntries, and_true, true_and]
    decide
  have htop : Listing.listable sampleHost (.ofText "dist") [] = true := by
    rw [listable_iff]
    exact ⟨rfl, _, by cbv⟩
  have hsrc : Listing.listable sampleHost (.ofText "dist") ["src"] = true := by
    rw [listable_iff]
    exact ⟨rfl, _, by cbv⟩
  have hnode : topNode sampleHost (.ofText "dist") = .directory [
    ("src", .directory [("b.ts", .file []), ("a.ts", .file [])]),
    ("out", .directory [("c.ts", .file [])]),
    ("alias", .link "src")] := by cbv
  obtain ⟨paths, ⟨records, hlist⟩, hmem, -⟩ :=
    @list?_without_links _ hhost { patterns := ["", "b."] } rfl "dist"
  have hnul : Path.hasNul (Path.ofText "dist").text = false := by cbv
  rw [hnul] at hlist
  refine ⟨hhost, paths, records, hlist, ?_, ?_, ?_, ?_⟩ <;> rw [hmem] <;> rw [hnode]
  . rw [isListed_cons (by simp)]
    refine ⟨htop, by decide, _, rfl, isListed_singleton.mpr ⟨hsrc, _, rfl, by cbv, by cbv⟩⟩
  . intro h
    have hclean := isExcluded_eq_false_iff.mpr h.clean
    have hexcluded : isExcluded ["", "b."] (relativeText ["src", "b.ts"]) = true := by cbv
    rw [List.nil_append] at hclean
    rw [hexcluded] at hclean
    contradiction
  . intro h
    have hskipped := (h.directories [] "out" ["c.ts"] rfl (by simp)).2
    exact hskipped (by decide)
  . intro h
    obtain ⟨entries, hentries⟩ := (h.directories [] "alias" ["a.ts"] rfl (by simp)).1
    simp [Node.descend?, Node.child?, Node.entries, List.lookup] at hentries

end Listing

end ParadigmScan
