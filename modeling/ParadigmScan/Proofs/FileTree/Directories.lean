import Mathlib.Algebra.Order.BigOperators.Group.List
import Mathlib.Algebra.Order.Ring.Nat
import ParadigmScan.Proofs.FileTree.Nodes

/-!
This module contains the directories of a tree of files with the number of their entries. Every node but the
root is an entry of exactly one directory, so a walk that enters no directory twice meets at most as many
entries as there are nodes.
-/

namespace ParadigmScan

namespace Node

mutual

def directories : Node → List (List String × Nat)
  | directory entries => ([], entries.length) :: directoriesBelow entries
  | _ => []

def directoriesBelow : List (String × Node) → List (List String × Nat)
  | [] => []
  | (name, node) :: rest =>
    node.directories.map (fun (names, count) => (name :: names, count)) ++ directoriesBelow rest

end

mutual

theorem size_eq_sum_directories (node : Node) :
    node.size = 1 + (node.directories.map (·.2)).sum := by
  cases node with
  | directory entries =>
    simp only [size, directories, List.map_cons, List.sum_cons]
    rw [sizeEntries_eq_sum_directoriesBelow entries]
  | file | link | special => simp [size, directories]

theorem sizeEntries_eq_sum_directoriesBelow (entries : List (String × Node)) :
    sizeEntries entries = entries.length + ((directoriesBelow entries).map (·.2)).sum := by
  match entries with
  | [] => simp [sizeEntries, directoriesBelow]
  | (name, node) :: rest =>
    have hrest := sizeEntries_eq_sum_directoriesBelow rest
    have hnode := size_eq_sum_directories node
    have hmap : (node.directories.map fun (names, count) => (name :: names, count)).map (·.2) =
        node.directories.map (·.2) := by simp
    simp only [sizeEntries, directoriesBelow, List.map_append, List.sum_append, List.length_cons]
    rw [hmap]
    omega

end

theorem mem_directoriesBelow {entries : List (String × Node)} {name : String} {node : Node}
    (hmem : (name, node) ∈ entries) {names : List String} {count : Nat}
    (h : (names, count) ∈ node.directories) : (name :: names, count) ∈ directoriesBelow entries := by
  induction entries with
  | nil => simp at hmem
  | cons entry entries ih =>
    obtain ⟨other, node'⟩ := entry
    rw [directoriesBelow]
    rw [List.mem_append]
    cases List.mem_cons.mp hmem with
    | inl heq =>
      simp only [Prod.mk.injEq] at heq
      obtain ⟨rfl, rfl⟩ := heq
      exact Or.inl (List.mem_map.mpr ⟨_, h, rfl⟩)
    | inr hmem => exact Or.inr (ih hmem)

theorem mem_directories {node : Node} {names : List String} {entries : List (String × Node)}
    (h : node.descend? names = some (directory entries)) :
    (names, entries.length) ∈ node.directories := by
  induction names generalizing node with
  | nil =>
    simp only [descend?, Option.some.injEq] at h
    subst h
    simp [directories]
  | cons name names ih =>
    obtain ⟨child, hchild, hbelow⟩ := Option.bind_eq_some_iff.mp h
    obtain ⟨entries', rfl, hmem⟩ := child?_eq_some hchild
    rw [directories]
    exact List.mem_cons_of_mem _ (mem_directoriesBelow hmem (ih hbelow))

/--
The number of entries in those directories whose place is not among the given ones. The innermost name of a
place comes first.
-/
def entriesLeft (node : Node) (entered : List (List String)) : Nat :=
  (node.directories.map fun directory =>
    if directory.1.reverse ∈ entered then 0 else directory.2).sum

theorem size_eq_entriesLeft_nil (node : Node) : node.size = 1 + node.entriesLeft [] := by
  rw [size_eq_sum_directories]
  simp [entriesLeft]

theorem sum_cons_le (directories : List (List String × Nat)) (place : List String)
    (entered : List (List String)) :
    (directories.map fun directory =>
        if directory.1.reverse ∈ place :: entered then 0 else directory.2).sum ≤
      (directories.map fun directory =>
        if directory.1.reverse ∈ entered then 0 else directory.2).sum := by
  apply List.sum_le_sum
  intro directory _
  by_cases hmem : directory.1.reverse ∈ entered <;> by_cases heq : directory.1.reverse = place <;>
    simp [hmem, heq]

theorem entriesLeft_cons_le (node : Node) (place : List String) (entered : List (List String)) :
    node.entriesLeft (place :: entered) ≤ node.entriesLeft entered :=
  sum_cons_le node.directories place entered

theorem add_entriesLeft_cons_le {node : Node} {names : List String} {count : Nat}
    (hmem : (names, count) ∈ node.directories) {entered : List (List String)}
    (hplace : names.reverse ∉ entered) :
    count + node.entriesLeft (names.reverse :: entered) ≤ node.entriesLeft entered := by
  -- The directory itself is counted no more; of the others none is counted anew.
  obtain ⟨before, behind, hsplit⟩ := List.append_of_mem hmem
  have hbefore := sum_cons_le before names.reverse entered
  have hbehind := sum_cons_le behind names.reverse entered
  unfold entriesLeft
  rw [hsplit]
  simp only [List.map_append, List.map_cons, List.sum_append, List.sum_cons, List.mem_cons_self,
    ↓reduceIte, hplace]
  omega

end Node

end ParadigmScan
