import ParadigmScan.Proofs.FileTree.Arrangement
import ParadigmScan.Proofs.Listing.Tour

/-!
This module contains that the order in which a directory yields its entries has no influence on what a
listing finds there.
-/

namespace ParadigmScan

namespace Listing

namespace EntryKind

theorem ofNode_shape (node : Node) : ofNode node.shape = ofNode node := by
  cases node <;> rfl

end EntryKind

variable {host host' : Host} (hsame : host.Rearranged host') (options : Options) (top : Path)

include hsame

theorem entryKind_rearranged (path : Path) {node node' : Node} (h : node.Rearranged node') :
    entryKind host options path node = entryKind host' options path node' := by
  cases node with
  | link target =>
    rw [h.link_eq]
    unfold entryKind
    rcases Host.resolve_rearranged hsame path.text with ⟨error, hleft, hright⟩ |
      ⟨found, found', hleft, hright, hfound⟩
    . simp only [hleft, hright]
    . simp only [hleft, hright]
      rw [← EntryKind.ofNode_shape found]
      rw [hfound.shape]
      rw [EntryKind.ofNode_shape]
  | file | directory | special =>
    have hshape := h.shape
    cases node' <;> simp_all [Node.shape, entryKind, EntryKind.ofNode]

theorem admitted_rearranged (names : List String) (kind : EntryKind) (accepts : String → Bool)
    {entries entries' : List (String × Node)} (h : Node.RearrangedEntries entries entries') :
    admitted host options top names kind accepts entries =
      admitted host' options top names kind accepts entries' := by
  unfold admitted
  rw [← @List.forall₂_eq_eq_eq (List String)]
  apply List.rel_map _ (List.rel_filter _ h)
  . rintro ⟨name, node⟩ ⟨name', node'⟩ ⟨rfl, -⟩
    rfl
  . rintro ⟨name, node⟩ ⟨name', node'⟩ ⟨rfl, hnode⟩
    simp only [entryKind_rearranged hsame options _ hnode]

theorem foundIn_rearranged (kind : EntryKind) (accepts : String → Bool) (names : List String) :
    foundIn host options top kind accepts names = foundIn host' options top kind accepts names := by
  unfold foundIn
  rcases Host.listEntries_rearranged hsame (top.descend names) with ⟨error, h, h'⟩ |
    ⟨entries, entries', h, h', hentries⟩
  . simp only [h, h']
  . simp only [h, h']
    exact admitted_rearranged hsame options top names _ _ hentries

theorem filesIn_rearranged : filesIn host options top = filesIn host' options top :=
  funext (foundIn_rearranged hsame options top .file isSourceFile)

theorem directoriesIn_rearranged : directoriesIn host options top = directoriesIn host' options top :=
  funext (foundIn_rearranged hsame options top .directory (!options.skipped.contains ·))

theorem refusalIn_rearranged (names : List String) :
    refusalIn host top names = refusalIn host' top names := by
  unfold refusalIn
  rcases Host.listEntries_rearranged hsame (top.descend names) with ⟨error, h, h'⟩ |
    ⟨entries, entries', h, h', -⟩
  . simp only [h, h']
  . simp only [h, h']

theorem realPlace_rearranged (path : Path) : realPlace host path = realPlace host' path := by
  have hend := Host.sameEnd_follow hsame path.text
  unfold realPlace
  revert hend
  generalize host.follow path.text = outcome
  generalize host'.follow path.text = outcome'
  rintro (error | h | ⟨name, h⟩)
  . rfl
  . exact h.map_fst
  . rfl

theorem trail_rearranged (fuel : Nat) (pending entered : List (List String)) :
    trail host options top fuel pending entered = trail host' options top fuel pending entered := by
  induction fuel generalizing pending entered with
  | zero => rfl
  | succ fuel ih =>
    cases pending with
    | nil => rfl
    | cons names pending =>
      simp only [trail]
      simp only [directoriesIn_rearranged hsame, realPlace_rearranged hsame, ih]

end Listing

end ParadigmScan
