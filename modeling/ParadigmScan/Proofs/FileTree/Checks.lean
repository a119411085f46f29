import ParadigmScan.Proofs.FileTree.Locations

/-!
This module contains what can be found out about what a path leads to, and when it cannot be found out.
-/

namespace ParadigmScan

namespace Host

variable {host : Host}

theorem check_eq_ok_true_iff {p : Node → Bool} {path : Path} :
    host.check p path = .ok true ↔
      Path.hasNul path.text = false ∧ ∃ node, host.resolve path.text = .ok node ∧ p node = true := by
  unfold check
  cases Path.hasNul path.text with
  | true => simp
  | false =>
    cases host.resolve path.text with
    | ok node => simp
    | error error => by_cases habsent : error.meansAbsent = true <;> simp [habsent]

/--
What the path leads to cannot be found out for this reason.
-/
def Withholds (host : Host) (path : Path) (error : FileError) : Prop :=
  Path.hasNul path.text = false ∧ host.resolve path.text = .error error ∧ error.meansAbsent = false

theorem check_eq_error_iff {p : Node → Bool} {path : Path} {error : FileError} :
    host.check p path = .error error ↔ host.Withholds path error := by
  unfold check Withholds
  cases Path.hasNul path.text with
  | true => simp
  | false =>
    cases host.resolve path.text with
    | ok node => simp
    | error other =>
      by_cases habsent : other.meansAbsent = true
      . simp only [Bool.false_eq_true, ↓reduceIte, habsent, reduceCtorEq, Except.error.injEq, true_and,
          false_iff, not_and, Bool.not_eq_false]
        rintro rfl
        exact habsent
      . simp only [Bool.false_eq_true, ↓reduceIte, habsent, Except.error.injEq, true_and, iff_self_and]
        rintro rfl
        exact Bool.not_eq_true _ ▸ habsent

theorem withholds_of_not_permits {path : Path} (hnul : Path.hasNul path.text = false)
    (hpermits : ¬ host.Permits path.text) : ∃ error, host.Withholds path error := by
  obtain ⟨error, hresolve, habsent⟩ := resolve_of_not_permits hpermits
  exact ⟨error, hnul, hresolve, habsent⟩

def HasDirectory (host : Host) (path : Path) : Prop :=
  Path.hasNul path.text = false ∧ ∃ entries, host.resolve path.text = .ok (.directory entries)

theorem isDirectory_eq_ok_true_iff {path : Path} :
    host.isDirectory path = .ok true ↔ host.HasDirectory path := by
  unfold isDirectory HasDirectory
  rw [check_eq_ok_true_iff]
  apply and_congr_right
  intro _
  constructor
  . rintro ⟨node, hresolve, hnode⟩
    cases node with
    | directory entries => exact ⟨entries, hresolve⟩
    | _ => cases hnode
  . rintro ⟨entries, hresolve⟩
    exact ⟨_, hresolve, rfl⟩

theorem isDirectory_eq_ok_false {path : Path} (hdirectory : ¬ host.HasDirectory path)
    (hwithholds : ∀ error, ¬ host.Withholds path error) : host.isDirectory path = .ok false := by
  cases h : host.isDirectory path with
  | error error => exact absurd (check_eq_error_iff.mp h) (hwithholds error)
  | ok found =>
    cases found with
    | false => rfl
    | true => exact absurd (isDirectory_eq_ok_true_iff.mp h) hdirectory

theorem readBytes_of_resolve {path : Path} {bytes : List UInt8} (hdenied : host.isDenied path = false)
    (hresolve : host.resolve path.text = .ok (.file bytes)) : host.readBytes path = .ok bytes := by
  unfold readBytes
  rw [hdenied]
  rw [hresolve]
  rfl

theorem resolve_text_of_descend? {names : List String} {node : Node} (hne : names ≠ [])
    (hnames : ∀ name ∈ names, Node.IsName name) (hnode : host.tree.descend? names = some node)
    (hlink : node.isLink = false) (hpermits : host.Permits (Path.text { anchor := .root, names })) :
    host.resolve (Path.text { anchor := .root, names }) = .ok node := by
  have hproper : Path.IsProper { anchor := .root, names } := fun name h => (hnames name h).toIsStep
  rw [resolve_eq_ok_iff]
  refine ⟨hpermits, ?_⟩
  rw [follow_text hproper hne]
  obtain ⟨location, hwalk, hat, -⟩ := @walk_descend _ maxLinks [] _ _ hnames hnode hlink
  exact ⟨location, hwalk, hat⟩

theorem resolve_of_long {text : String} (hlong : maxPathBytes ≤ text.utf8ByteSize) :
    host.resolve text = .error .nameTooLong := by
  unfold resolve locate find
  rw [if_pos hlong]
  rfl

theorem resolve_descend (hhost : host.WellFormed) {top : Path} (htop : top.IsProper) {root : Node}
    (hroot : host.resolve top.text = .ok root) {names : List String} {node : Node}
    (hnode : root.descend? names = some node) (hlink : node.isLink = false)
    (hpermits : host.Permits (top.descend names).text) :
    host.resolve (top.descend names).text = .ok node := by
  obtain ⟨-, location, hfollow, rfl⟩ := resolve_eq_ok_iff.mp hroot
  obtain ⟨location', hfollow', hat, -⟩ := follow_descend_real hhost htop hfollow hnode hlink
  exact resolve_eq_ok_iff.mpr ⟨hpermits, location', hfollow', hat⟩

end Host

end ParadigmScan
