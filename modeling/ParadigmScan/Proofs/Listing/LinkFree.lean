import ParadigmScan.Proofs.Listing.Aliases

/-!
This module contains listings of directories without links below them. Every directory then has one name only, so
that none is met a second time and it makes no difference whether links are followed.
-/

namespace ParadigmScan

def Node.LinkFree (node : Node) : Prop :=
  ∀ names child, names ≠ [] → node.descend? names = some child → child.isLink = false

theorem Node.linkFree_directory {entries : List (String × Node)}
    (h : ∀ entry ∈ entries, entry.2.isLink = false ∧ entry.2.LinkFree) :
    (directory entries).LinkFree := by
  intro names below hne hbelow
  cases names with
  | nil => contradiction
  | cons name names =>
    obtain ⟨child, hchild, hbelow⟩ := Option.bind_eq_some_iff.mp hbelow
    obtain ⟨hlink, hfree⟩ := h _ (mem_of_lookup_eq_some hchild)
    cases names with
    | nil =>
      simp only [descend?, Option.some.injEq] at hbelow
      rw [← hbelow]
      exact hlink
    | cons next names => exact hfree _ _ (by simp) hbelow

theorem Node.linkFree_file (bytes : List UInt8) : (file bytes).LinkFree := by
  intro names below hne hbelow
  cases names with
  | nil => contradiction
  | cons name names => simp [descend?, child?, entries] at hbelow

namespace Listing

open Node (byName mem_byName)

variable {options : Options} {listable : List String → Bool} {names : List String} {node : Node}

theorem mem_visits (hnode : node.WellFormed) {found : List String}
    (h : found ∈ visits options listable names node) :
    ∃ path, found = names ++ path ∧
      (path = [] ∨ ∃ entries, node.descend? path = some (.directory entries)) := by
  cases node with
  | file | link | special =>
    simp only [visits, List.mem_singleton] at h
    exact ⟨[], by simpa using h, .inl rfl⟩
  | directory entries =>
    induction entries using Node.directory_induction generalizing names with
    | step entries ih =>
      rw [visits_directory] at h
      split at h
      . rcases List.mem_cons.mp h with rfl | h
        . exact ⟨[], by simp, .inl rfl⟩
        . obtain ⟨entry, hentry, hfound⟩ := List.mem_flatMap.mp h
          obtain ⟨hmem, htakes⟩ := List.mem_filter.mp hentry
          obtain ⟨name, below, rfl⟩ := isDirectory_of_takesDirectory htakes
          have hmem := mem_byName.mp hmem
          have hchild := hnode.child?_eq_some_iff.mpr hmem
          obtain ⟨path, rfl, hpath⟩ := ih name below hmem (hnode.entry hmem) hfound
          refine ⟨name :: path, by simp, .inr ?_⟩
          rcases hpath with rfl | hpath
          . exact ⟨below, by simp [Node.descend?, hchild]⟩
          . simpa [Node.descend?, hchild] using hpath
      . exact ⟨[], by simpa using h, .inl rfl⟩

theorem nodup_visits (hnode : node.WellFormed) : (visits options listable names node).Nodup := by
  cases node with
  | file | link | special => simp [visits]
  | directory entries =>
    induction entries using Node.directory_induction generalizing names with
    | step entries ih =>
      rw [visits_directory]
      split
      . have hbelow : ∀ {entry}, entry ∈ (byName entries).filter (takesDirectory options names) →
            ∀ found ∈ visits options listable (names ++ [entry.1]) entry.2,
              ∃ path, found = names ++ entry.1 :: path := by
          intro entry hentry found hfound
          have hwellFormed := hnode.entry (mem_byName.mp (List.mem_filter.mp hentry).1)
          obtain ⟨path, rfl, -⟩ := mem_visits hwellFormed hfound
          exact ⟨path, by simp⟩
        rw [List.nodup_cons]
        constructor
        . intro h
          obtain ⟨entry, hentry, hfound⟩ := List.mem_flatMap.mp h
          obtain ⟨path, hpath⟩ := hbelow hentry names hfound
          simp at hpath
        . rw [List.nodup_flatMap]
          constructor
          . intro entry hentry
            obtain ⟨hmem, htakes⟩ := List.mem_filter.mp hentry
            obtain ⟨name, below, rfl⟩ := isDirectory_of_takesDirectory htakes
            have hmem := mem_byName.mp hmem
            exact ih name below hmem (hnode.entry hmem)
          . have hnames := nodup_names_filter hnode (takesDirectory options names)
            rw [List.Nodup, List.pairwise_map] at hnames
            apply hnames.imp_of_mem
            intro a b ha hb hne found hfound hfound'
            obtain ⟨path, rfl⟩ := hbelow ha found hfound
            obtain ⟨path', heq⟩ := hbelow hb _ hfound'
            simp only [List.append_cancel_left_eq, List.cons.injEq] at heq
            exact hne heq.1
      . simp

variable {host : Host} {top : Path}

theorem foundIn_of_no_link (options : Options) (followLinks : Bool)
    (h : ∀ found, host.listEntries (top.descend names) = .ok found →
      ∀ entry ∈ found, entry.2.isLink = false)
    (kind : EntryKind) (accepts : String → Bool) :
    foundIn host { options with followLinks } top kind accepts names =
      foundIn host options top kind accepts names := by
  unfold foundIn
  cases hfound : host.listEntries (top.descend names) with
  | error error => rfl
  | ok found =>
    simp only [admitted]
    congr 1
    apply List.filter_congr
    intro entry hentry
    have hlink := h found hfound entry hentry
    simp only [entryKind_of_not_link _ hlink]

section Tour

variable (hhost : host.WellFormed) (htop : top.IsProper) (hplain : options.followLinks = false)

include hhost htop hplain

theorem tour_eq_visits :
    tour host options top = visits options (Listing.listable host top) [] (topNode host top) :=
  trail_eq_visits hhost htop hplain (size_topNode_le hhost)

theorem descend?_of_mem_tour (h : names ∈ tour host options top) :
    names = [] ∨ ∃ entries, (topNode host top).descend? names = some (.directory entries) := by
  rw [tour_eq_visits hhost htop hplain] at h
  obtain ⟨path, rfl, hpath⟩ := mem_visits (wellFormed_topNode hhost) h
  exact hpath

theorem realPlace_of_mem_tour (h : names ∈ tour host options top) :
    realPlace host (top.descend names) = names.reverse ++ realPlace host top := by
  rcases descend?_of_mem_tour hhost htop hplain h with rfl | ⟨entries, hentries⟩
  . simp
  . obtain ⟨-, location, hfollow, hat⟩ :=
      Host.resolve_eq_ok_iff.mp (resolve_of_descend?_topNode hentries)
    rw [← hat] at hentries
    obtain ⟨location', hfollow', -, hplace⟩ :=
      Host.follow_descend_real hhost htop hfollow hentries rfl
    rw [realPlace_of_follow hfollow]
    rw [realPlace_of_follow hfollow']
    exact hplace

theorem nodup_realPlace_tour :
    ((tour host options top).map fun names => realPlace host (top.descend names)).Nodup := by
  have hplaces : ((tour host options top).map fun names => realPlace host (top.descend names)) =
      (tour host options top).map fun names => names.reverse ++ realPlace host top := by
    apply List.map_congr_left
    intro names hnames
    exact realPlace_of_mem_tour hhost htop hplain hnames
  have hinjective : Function.Injective fun names : List String =>
      names.reverse ++ realPlace host top := by
    intro a b h
    simpa using h
  rw [hplaces]
  apply List.Nodup.map hinjective
  rw [tour_eq_visits hhost htop hplain]
  exact nodup_visits (wellFormed_topNode hhost)

theorem not_isLink_of_mem_tour (hfree : (topNode host top).LinkFree)
    (h : names ∈ tour host options top) {found : List (String × Node)}
    (hfound : host.listEntries (top.descend names) = .ok found) :
    ∀ entry ∈ found, entry.2.isLink = false := by
  have hentries : ∃ entries, (topNode host top).descend? names = some (.directory entries) ∧
      found = byName entries := by
    rcases descend?_of_mem_tour hhost htop hplain h with rfl | ⟨entries, hentries⟩
    . rw [Path.descend_nil] at hfound
      obtain ⟨-, entries, hresolve, rfl⟩ := Host.listEntries_eq_ok_iff.mp hfound
      exact ⟨entries, by simp [topNode, hresolve, Node.descend?], rfl⟩
    . have hresolve := resolve_of_descend?_topNode hentries
      exact ⟨entries, hentries, Host.listEntries_descend hhost htop hresolve hentries hfound⟩
  obtain ⟨entries, hentries, rfl⟩ := hentries
  intro entry hentry
  have hchild := (wellFormed_topNode hhost).descend?_concat_of_mem hentries (mem_byName.mp hentry)
  exact hfree _ _ (by simp) hchild

end Tour

theorem trail_followLinks_eq (hplain : options.followLinks = false) {fuel : Nat}
    {pending entered entered' : List (List String)}
    (hdirectories : ∀ names ∈ trail host options top fuel pending entered,
      directoriesIn host { options with followLinks := true } top names =
        directoriesIn host options top names)
    (hnodup : ((trail host options top fuel pending entered).map
      fun names => realPlace host (top.descend names)).Nodup)
    (hfresh : ∀ names ∈ trail host options top fuel pending entered,
      realPlace host (top.descend names) ∉ entered') :
    trail host { options with followLinks := true } top fuel pending entered' =
      trail host options top fuel pending entered := by
  induction fuel generalizing pending entered' with
  | zero => rfl
  | succ fuel ih =>
    cases pending with
    | nil => rfl
    | cons names pending =>
      rw [trail_cons_plain hplain] at hdirectories hnodup hfresh ⊢
      rw [List.forall_mem_cons] at hdirectories hfresh
      rw [List.map_cons] at hnodup
      rw [List.nodup_cons] at hnodup
      rw [trail_cons_of_notMem rfl fuel pending hfresh.1]
      rw [hdirectories.1]
      congr 1
      apply ih hdirectories.2 hnodup.2
      intro other hother
      rw [List.mem_cons]
      rintro (hplace | hplace)
      . apply hnodup.1
        rw [← hplace]
        exact List.mem_map_of_mem hother
      . exact hfresh.2 other hother hplace

def entranceHost : Host where
  tree := .directory [
    ("l", .link "d"),
    ("d", .directory [("e", .directory [("b.ts", .file [])]), ("c", .directory [])])]
  cwd := []
  denied := []

end Listing

end ParadigmScan
