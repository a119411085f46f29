import Mathlib.Data.List.Forall2
import ParadigmScan.Proofs.FileTree.Locations

/-!
This module contains trees of files that differ only in how the entries of their directories are arranged.
Whatever is looked up by a path comes out the same in both.
-/

namespace ParadigmScan

namespace Node

def shape : Node → Node
  | directory _ => directory []
  | node => node

/--
Two well-formed trees that have the same nodes under the same names. All that can differ is the order in
which the entries of a directory come.
-/
structure Rearranged (node node' : Node) : Prop where
  left : node.WellFormed
  right : node'.WellFormed
  shape_eq : ∀ names, (node.descend? names).map shape = (node'.descend? names).map shape

theorem Rearranged.symm {node node' : Node} (h : node.Rearranged node') : node'.Rearranged node :=
  ⟨h.right, h.left, fun names => (h.shape_eq names).symm⟩

theorem Rearranged.shape {node node' : Node} (h : node.Rearranged node') :
    node.shape = node'.shape := by
  simpa [descend?] using h.shape_eq []

theorem Rearranged.isDirectory {node node' : Node} (h : node.Rearranged node') :
    node'.isDirectory = node.isDirectory := by
  have hshape := h.shape
  cases node <;> cases node' <;> simp_all [Node.shape, Node.isDirectory]

theorem Rearranged.link_eq {node' : Node} {target : String} (h : (link target).Rearranged node') :
    node' = link target := by
  have hshape := h.shape
  cases node' <;> simp_all [Node.shape]

theorem Rearranged.child? {node node' child : Node} (h : node.Rearranged node') {name : String}
    (hchild : node.child? name = some child) :
    ∃ child', node'.child? name = some child' ∧ child.Rearranged child' := by
  have hshape := h.shape_eq
  cases hchild' : node'.child? name with
  | none =>
    specialize hshape [name]
    simp [descend?, hchild, hchild'] at hshape
  | some child' =>
    refine ⟨child', rfl, (h.left.child hchild).2, (h.right.child hchild').2, fun names => ?_⟩
    specialize hshape (name :: names)
    simpa [descend?, hchild, hchild'] using hshape

theorem Rearranged.child?_eq_none {node node' : Node} (h : node.Rearranged node') {name : String}
    (hchild : node.child? name = none) : node'.child? name = none := by
  cases hchild' : node'.child? name with
  | none => rfl
  | some child' =>
    obtain ⟨child, hchild'', -⟩ := h.symm.child? hchild'
    simp [hchild] at hchild''

abbrev RearrangedEntries : List (String × Node) → List (String × Node) → Prop :=
  List.Forall₂ fun entry entry' => entry.1 = entry'.1 ∧ entry.2.Rearranged entry'.2

theorem RearrangedEntries.map_fst {entries entries' : List (String × Node)}
    (h : RearrangedEntries entries entries') : entries.map (·.1) = entries'.map (·.1) := by
  induction h with
  | nil => rfl
  | cons hentry _ ih => simp [hentry.1, ih]

theorem Rearranged.map_byName {entries entries' : List (String × Node)}
    (h : (directory entries).Rearranged (directory entries')) :
    (byName entries).map (·.1) = (byName entries').map (·.1) := by
  have hmem : ∀ {entries entries'}, (directory entries).Rearranged (directory entries') →
      ∀ name, name ∈ entries.map (·.1) → name ∈ entries'.map (·.1) := by
    intro entries entries' h name hname
    obtain ⟨⟨name, node⟩, hmem, rfl⟩ := List.mem_map.mp hname
    obtain ⟨node', hnode', -⟩ := h.child? (h.left.child?_eq_some_iff.mpr hmem)
    exact List.mem_map.mpr ⟨_, h.right.child?_eq_some_iff.mp hnode', rfl⟩
  have hperm : (entries.map (·.1)).Perm (entries'.map (·.1)) := by
    rw [List.perm_ext_iff_of_nodup h.left.nodup h.right.nodup]
    exact fun name => ⟨hmem h name, hmem h.symm name⟩
  have hsorted := ((byName_perm entries).map (·.1)).trans
    (hperm.trans ((byName_perm entries').map (·.1)).symm)
  exact hsorted.eq_of_pairwise (fun _ _ _ _ => String.le_antisymm) (byName_pairwise entries)
    (byName_pairwise entries')

theorem Rearranged.byName {entries entries' : List (String × Node)}
    (h : (directory entries).Rearranged (directory entries')) :
    RearrangedEntries (Node.byName entries) (Node.byName entries') := by
  have hsame : List.Forall₂ (fun entry entry' : String × Node => entry.1 = entry'.1)
      (Node.byName entries) (Node.byName entries') := by
    have heq : List.Forall₂ Eq ((Node.byName entries).map (·.1)) ((Node.byName entries').map (·.1)) := by
      rw [List.forall₂_eq_eq_eq]
      exact h.map_byName
    simpa using heq
  have hleft := (List.forall₂_and_left _ _).mpr ⟨fun entry hentry => mem_byName.mp hentry, hsame⟩
  have hboth := (List.forall₂_and_left _ _).mpr ⟨fun entry hentry => mem_byName.mp hentry, hleft.flip⟩
  refine hboth.flip.imp ?_
  rintro ⟨name, node⟩ ⟨name', node'⟩ ⟨hmem', hmem, rfl⟩
  obtain ⟨child', hchild', hsame⟩ := h.child? (h.left.child?_eq_some_iff.mpr hmem)
  rw [h.right.child?_eq_some_iff.mpr hmem'] at hchild'
  simp only [Option.some.injEq] at hchild'
  subst hchild'
  exact ⟨rfl, hsame⟩

end Node

namespace Host

/--
Two views of the same files that differ in the order of entries only.
-/
structure Rearranged (host host' : Host) : Prop where
  tree : host.tree.Rearranged host'.tree
  cwd : host.cwd = host'.cwd
  denied : host.denied = host'.denied
  bars : host.bars = host'.bars

theorem Rearranged.wellFormed {host host' : Host} (h : host.Rearranged host')
    (hhost : host.WellFormed) : host'.WellFormed := by
  obtain ⟨entries, hentries⟩ := hhost.cwd
  refine ⟨h.tree.right, ?_⟩
  have hshape := h.tree.shape_eq host.cwd
  rw [hentries] at hshape
  rw [← h.cwd]
  cases hnode : host'.tree.descend? host.cwd with
  | none => simp [hnode] at hshape
  | some node =>
    rw [hnode] at hshape
    cases node with
    | directory entries' => exact ⟨entries', rfl⟩
    | file | link | special => simp [Node.shape] at hshape

/--
Two ways end at the same place, or fail for the same reason.
-/
inductive SameEnd : Except FileError Destination → Except FileError Destination → Prop where
  | error (error : FileError) : SameEnd (.error error) (.error error)
  | node {location location' : Location} (h : Node.RearrangedEntries location location') :
    SameEnd (.ok (.node location)) (.ok (.node location'))
  | missing {location location' : Location} (name : String)
    (h : Node.RearrangedEntries location location') :
    SameEnd (.ok (.missing location name)) (.ok (.missing location' name))

theorem rearranged_foldl_workingLocation {names : List String} {location location' : Location}
    {node node' : Node} (hlocation : Node.RearrangedEntries location location')
    (hnode : node.Rearranged node') :
    Node.RearrangedEntries (names.foldl workingLocation.step (location, node)).1
      (names.foldl workingLocation.step (location', node')).1 := by
  induction names generalizing location location' node node' with
  | nil => exact hlocation
  | cons name names ih =>
    have hnext : ((node.child? name).getD (.directory [])).Rearranged
        ((node'.child? name).getD (.directory [])) := by
      cases hchild : node.child? name with
      | none =>
        rw [hnode.child?_eq_none hchild]
        exact ⟨by simp [Node.WellFormed, Node.WellFormedEntries],
          by simp [Node.WellFormed, Node.WellFormedEntries], fun names => rfl⟩
      | some child =>
        obtain ⟨child', hchild', hsame⟩ := hnode.child? hchild
        rw [hchild']
        exact hsame
    exact ih (.cons ⟨rfl, hnext⟩ hlocation) hnext

variable {host host' : Host} (hsame : host.Rearranged host')

include hsame

theorem rearranged_nodeAt {location location' : Location}
    (h : Node.RearrangedEntries location location') :
    (host.nodeAt location).Rearranged (host'.nodeAt location') := by
  cases h with
  | nil => exact hsame.tree
  | cons hentry _ => exact hentry.2

theorem sameEnd_walk {links : Nat} {here here' : Location} {steps : List String}
    (h : Node.RearrangedEntries here here') :
    SameEnd (host.walk links here steps) (host'.walk links here' steps) := by
  -- Every test that a step makes sees the same in both trees, so both take the same branch.
  fun_induction walk host links here steps generalizing here' with
  | case1 links here =>
    rw [walk]
    exact .node h
  | case2 links here step rest hdirectory =>
    rw [walk]
    simp only [(rearranged_nodeAt hsame h).isDirectory, hdirectory, ↓reduceIte]
    exact .error _
  | case3 links here step rest hdirectory hdot ih =>
    rw [walk]
    simp only [(rearranged_nodeAt hsame h).isDirectory, hdirectory, hdot, ↓reduceIte]
    exact ih h
  | case4 links here step rest hdirectory hdot hdots ih =>
    rw [walk]
    simp only [(rearranged_nodeAt hsame h).isDirectory, hdirectory, hdot, hdots, ↓reduceIte]
    apply ih
    cases h with
    | nil => exact .nil
    | cons _ hrest => exact hrest
  | case5 links here step rest hdirectory hdot hdots hsize =>
    rw [walk]
    simp only [(rearranged_nodeAt hsame h).isDirectory, hdirectory, hdot, hdots, hsize, ↓reduceIte]
    exact .error _
  | case6 links here step rest hdirectory hdot hdots hsize hchild hrest =>
    have hchild' := (rearranged_nodeAt hsame h).child?_eq_none hchild
    rw [walk]
    simp only [(rearranged_nodeAt hsame h).isDirectory, hdirectory, hdot, hdots, hsize, hchild',
      hrest, ↓reduceIte]
    exact .missing _ h
  | case7 links here step rest hdirectory hdot hdots hsize hchild hrest =>
    have hchild' := (rearranged_nodeAt hsame h).child?_eq_none hchild
    rw [walk]
    simp only [(rearranged_nodeAt hsame h).isDirectory, hdirectory, hdot, hdots, hsize, hchild',
      hrest, ↓reduceIte]
    exact .error _
  | case8 here step rest hdirectory hdot hdots hsize target hchild =>
    obtain ⟨child', hchild', hlink⟩ := (rearranged_nodeAt hsame h).child? hchild
    rw [hlink.link_eq] at hchild'
    rw [walk]
    simp only [(rearranged_nodeAt hsame h).isDirectory, hdirectory, hdot, hdots, hsize, hchild',
      ↓reduceIte]
    exact .error _
  | case9 here step rest hdirectory hdot hdots hsize target hchild links ih =>
    obtain ⟨child', hchild', hlink⟩ := (rearranged_nodeAt hsame h).child? hchild
    rw [hlink.link_eq] at hchild'
    rw [walk]
    simp only [(rearranged_nodeAt hsame h).isDirectory, hdirectory, hdot, hdots, hsize, hchild',
      ↓reduceIte]
    apply ih
    split
    . exact .nil
    . exact h
  | case10 links here step rest hdirectory hdot hdots hsize node hlink hchild ih =>
    obtain ⟨child', hchild', hnode⟩ := (rearranged_nodeAt hsame h).child? hchild
    rw [walk]
    simp only [(rearranged_nodeAt hsame h).isDirectory, hdirectory, hdot, hdots, hsize, hchild',
      ↓reduceIte]
    specialize @ih ((step, child') :: here') (.cons ⟨rfl, hnode⟩ h)
    cases child' with
    | link target => exact absurd hnode.symm.link_eq (hlink target)
    | file | directory | special => exact ih

theorem sameEnd_follow (text : String) : SameEnd (host.follow text) (host'.follow text) := by
  apply sameEnd_walk hsame
  split
  . exact .nil
  . unfold workingLocation
    rw [hsame.cwd]
    exact rearranged_foldl_workingLocation .nil hsame.tree

theorem resolve_rearranged (text : String) :
    (∃ error, host.resolve text = .error error ∧ host'.resolve text = .error error) ∨
      ∃ node node', host.resolve text = .ok node ∧ host'.resolve text = .ok node' ∧
        node.Rearranged node' := by
  unfold resolve locate find
  rw [← hsame.bars]
  split
  . left
    exact ⟨_, rfl, rfl⟩
  split
  . left
    exact ⟨_, rfl, rfl⟩
  . have hend := sameEnd_follow hsame text
    revert hend
    generalize host.follow text = outcome
    generalize host'.follow text = outcome'
    rintro (error | h | ⟨name, h⟩)
    . left
      exact ⟨error, rfl, rfl⟩
    . right
      exact ⟨_, _, rfl, rfl, rearranged_nodeAt hsame h⟩
    . left
      exact ⟨_, rfl, rfl⟩

theorem listEntries_rearranged (path : Path) :
    (∃ error, host.listEntries path = .error error ∧ host'.listEntries path = .error error) ∨
      ∃ entries entries', host.listEntries path = .ok entries ∧ host'.listEntries path = .ok entries' ∧
        Node.RearrangedEntries entries entries' := by
  have hdenied : host'.isDenied path = host.isDenied path := by
    simp [isDenied, hsame.cwd, hsame.denied]
  unfold listEntries
  rw [hdenied]
  cases host.isDenied path with
  | true => exact Or.inl ⟨_, rfl, rfl⟩
  | false =>
    rcases resolve_rearranged hsame path.text with ⟨error, h, h'⟩ | ⟨node, node', h, h', hnode⟩
    . simp only [h, h']
      exact Or.inl ⟨_, rfl, rfl⟩
    . simp only [h, h']
      cases node with
      | directory entries =>
        cases node' with
        | directory entries' => exact Or.inr ⟨_, _, rfl, rfl, hnode.byName⟩
        | file | link | special => exact absurd hnode.isDirectory (by simp [Node.isDirectory])
      | file | link | special =>
        cases node' with
        | directory entries' => exact absurd hnode.isDirectory (by simp [Node.isDirectory])
        | file | link | special => exact Or.inl ⟨_, rfl, rfl⟩

end Host

end ParadigmScan
