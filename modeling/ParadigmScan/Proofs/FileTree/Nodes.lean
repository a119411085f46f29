import ParadigmScan.Proofs.FileTree.Names

/-!
This module contains the nodes of a tree of files by the names that lead to them, and what every file system
guarantees about these names.
-/

namespace ParadigmScan

namespace Node

structure IsName (name : String) : Prop extends Path.IsStep name where
  ne_dots : name ≠ ".."
  nul_notMem : Char.ofNat 0 ∉ name.toList
  size_le : name.utf8ByteSize ≤ Host.maxNameBytes

instance (name : String) : Decidable (IsName name) :=
  decidable_of_iff (name ≠ "" ∧ name ≠ "." ∧ '/' ∉ name.toList ∧ name ≠ ".." ∧
      Char.ofNat 0 ∉ name.toList ∧ name.utf8ByteSize ≤ Host.maxNameBytes)
    ⟨fun ⟨h1, h2, h3, h4, h5, h6⟩ => ⟨⟨h1, h2, h3⟩, h4, h5, h6⟩,
      fun h => ⟨h.ne_empty, h.ne_dot, h.slash_notMem, h.ne_dots, h.nul_notMem, h.size_le⟩⟩

mutual

def WellFormed : Node → Prop
  | directory entries => (entries.map (·.1)).Nodup ∧ WellFormedEntries entries
  | _ => True

def WellFormedEntries : List (String × Node) → Prop
  | [] => True
  | (name, node) :: rest => IsName name ∧ node.WellFormed ∧ WellFormedEntries rest

end

theorem wellFormedEntries_iff {entries : List (String × Node)} :
    WellFormedEntries entries ↔ ∀ entry ∈ entries, IsName entry.1 ∧ entry.2.WellFormed := by
  induction entries with
  | nil => simp [WellFormedEntries]
  | cons entry entries ih =>
    obtain ⟨name, node⟩ := entry
    simp [WellFormedEntries, ih, and_assoc]

theorem WellFormed.nodup {entries : List (String × Node)} (h : (directory entries).WellFormed) :
    (entries.map (·.1)).Nodup := by
  rw [WellFormed] at h
  exact h.1

theorem WellFormed.isName {entries : List (String × Node)} (h : (directory entries).WellFormed)
    {entry : String × Node} (hentry : entry ∈ entries) : IsName entry.1 := by
  rw [WellFormed] at h
  exact (wellFormedEntries_iff.mp h.2 entry hentry).1

theorem WellFormed.entry {entries : List (String × Node)} (h : (directory entries).WellFormed)
    {entry : String × Node} (hentry : entry ∈ entries) : entry.2.WellFormed := by
  rw [WellFormed] at h
  exact (wellFormedEntries_iff.mp h.2 entry hentry).2

theorem lookup_eq_some_iff {entries : List (String × Node)} (hnodup : (entries.map (·.1)).Nodup)
    {name : String} {node : Node} : entries.lookup name = some node ↔ (name, node) ∈ entries := by
  induction entries with
  | nil => simp
  | cons entry entries ih =>
    obtain ⟨other, node'⟩ := entry
    simp only [List.map_cons, List.nodup_cons] at hnodup
    obtain ⟨hother, hnodup⟩ := hnodup
    rw [List.lookup_cons]
    by_cases heq : name = other
    . subst heq
      have : (name, node) ∉ entries := fun hmem => hother (List.mem_map.mpr ⟨_, hmem, rfl⟩)
      simp [this, eq_comm]
    . have hne : (name == other) = false := by simpa using heq
      simp [hne, ih hnodup, heq]

theorem mem_of_lookup_eq_some {entries : List (String × Node)} {name : String} {node : Node}
    (h : entries.lookup name = some node) : (name, node) ∈ entries := by
  induction entries with
  | nil => simp at h
  | cons entry entries ih =>
    obtain ⟨other, node'⟩ := entry
    rw [List.lookup_cons] at h
    split at h
    . next heq => simp_all
    . simp [ih h]

/--
The node that is reached by taking one name after the other. No link is followed on the way.
-/
def descend? (node : Node) : List String → Option Node
  | [] => some node
  | name :: names => (node.child? name).bind (·.descend? names)

theorem descend?_append (node : Node) (names names' : List String) :
    node.descend? (names ++ names') = (node.descend? names).bind (·.descend? names') := by
  induction names generalizing node with
  | nil => rfl
  | cons name names ih =>
    simp only [List.cons_append, descend?]
    cases node.child? name with
    | none => rfl
    | some child => exact ih child

theorem descend?_concat (node : Node) (names : List String) (name : String) :
    node.descend? (names ++ [name]) = (node.descend? names).bind (·.child? name) := by
  rw [descend?_append]
  simp [descend?]

theorem child?_eq_some {node child : Node} {name : String} (h : node.child? name = some child) :
    ∃ entries, node = directory entries ∧ (name, child) ∈ entries := by
  unfold child? at h
  cases node with
  | directory entries => exact ⟨entries, rfl, mem_of_lookup_eq_some h⟩
  | file | link | special => simp [entries] at h

theorem exists_of_descend?_concat {node child : Node} {names : List String} {name : String}
    (h : node.descend? (names ++ [name]) = some child) :
    ∃ entries, node.descend? names = some (directory entries) ∧ (name, child) ∈ entries := by
  rw [descend?_concat] at h
  obtain ⟨parent, hparent, hchild⟩ := Option.bind_eq_some_iff.mp h
  obtain ⟨entries, rfl, hmem⟩ := child?_eq_some hchild
  exact ⟨entries, hparent, hmem⟩

theorem WellFormed.child {node child : Node} (hnode : node.WellFormed) {name : String}
    (h : node.child? name = some child) : IsName name ∧ child.WellFormed := by
  obtain ⟨entries, rfl, hmem⟩ := child?_eq_some h
  exact ⟨hnode.isName hmem, hnode.entry hmem⟩

theorem WellFormed.descend {node below : Node} (hnode : node.WellFormed) {names : List String}
    (h : node.descend? names = some below) : (∀ name ∈ names, IsName name) ∧ below.WellFormed := by
  induction names generalizing node with
  | nil =>
    simp only [descend?, Option.some.injEq] at h
    subst h
    simpa using hnode
  | cons name names ih =>
    obtain ⟨child, hchild, hbelow⟩ := Option.bind_eq_some_iff.mp h
    obtain ⟨hname, hchild⟩ := hnode.child hchild
    obtain ⟨hnames, hbelow⟩ := ih hchild hbelow
    simpa [hname, hbelow] using hnames

theorem WellFormed.child?_eq_some_iff {entries : List (String × Node)}
    (h : (directory entries).WellFormed) {name : String} {node : Node} :
    (directory entries).child? name = some node ↔ (name, node) ∈ entries :=
  lookup_eq_some_iff h.nodup

theorem WellFormed.descend?_concat_of_mem {node : Node} (h : node.WellFormed) {names : List String}
    {entries : List (String × Node)} (hnode : node.descend? names = some (directory entries))
    {entry : String × Node} (hentry : entry ∈ entries) :
    node.descend? (names ++ [entry.1]) = some entry.2 := by
  rw [descend?_concat]
  rw [hnode]
  exact (h.descend hnode).2.child?_eq_some_iff.mpr hentry

theorem size_le_sizeEntries_of_mem {name : String} {node : Node} {entries : List (String × Node)}
    (h : (name, node) ∈ entries) : node.size ≤ sizeEntries entries := by
  induction entries with
  | nil => simp at h
  | cons entry entries ih =>
    obtain ⟨other, node'⟩ := entry
    simp only [sizeEntries]
    cases List.mem_cons.mp h with
    | inl heq =>
      simp only [Prod.mk.injEq] at heq
      rw [heq.2]
      omega
    | inr hmem =>
      specialize ih hmem
      omega

theorem size_lt_of_mem {name : String} {node : Node} {entries : List (String × Node)}
    (h : (name, node) ∈ entries) : node.size < (directory entries).size := by
  have := size_le_sizeEntries_of_mem h
  simp only [size]
  omega

@[elab_as_elim]
theorem directory_induction {motive : List (String × Node) → Prop} (entries : List (String × Node))
    (step : ∀ entries, (∀ name below, (name, directory below) ∈ entries → motive below) →
      motive entries) : motive entries := by
  apply step
  intro name below hmem
  have := size_lt_of_mem hmem
  exact directory_induction below step
termination_by (directory entries).size

theorem size_le_of_descend? {node below : Node} {names : List String}
    (h : node.descend? names = some below) : below.size ≤ node.size := by
  induction names generalizing node with
  | nil =>
    simp only [descend?, Option.some.injEq] at h
    subst h
    apply Nat.le_refl
  | cons name names ih =>
    obtain ⟨child, hchild, hbelow⟩ := Option.bind_eq_some_iff.mp h
    obtain ⟨entries, rfl, hmem⟩ := child?_eq_some hchild
    have := size_lt_of_mem hmem
    specialize ih hbelow
    omega

def byName (entries : List (String × Node)) : List (String × Node) :=
  entries.mergeSort fun a b => a.1 ≤ b.1

theorem byName_perm (entries : List (String × Node)) : (byName entries).Perm entries :=
  List.mergeSort_perm _ _

@[simp]
theorem mem_byName {entry : String × Node} {entries : List (String × Node)} :
    entry ∈ byName entries ↔ entry ∈ entries :=
  (byName_perm entries).mem_iff

theorem byName_pairwise (entries : List (String × Node)) :
    ((byName entries).map (·.1)).Pairwise (· ≤ ·) := by
  rw [List.pairwise_map]
  have hpairwise : (byName entries).Pairwise fun a b => decide (a.1 ≤ b.1) = true := by
    apply List.pairwise_mergeSort
    . intro a b c
      simpa using String.le_trans
    . intro a b
      simpa using String.le_total a.1 b.1
  simpa using hpairwise

end Node

end ParadigmScan
