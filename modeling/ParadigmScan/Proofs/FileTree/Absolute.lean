import ParadigmScan.Proofs.FileTree.Lookup

/-!
This module contains that writing a path out as a text and reading it again changes nothing, and that a path which is
made absolute stays as it is when it is made absolute again.
-/

namespace ParadigmScan

namespace Path

theorem namesOf_text {path : Path} (h : path.IsProper) : namesOf path.text = path.names := by
  obtain ⟨anchor, names⟩ := path
  by_cases hne : names = []
  . subst hne
    cases anchor <;> decide
  . obtain ⟨count, hparts⟩ := parts_anchor_append anchor hne h
    rw [text_of_names_ne_nil hne]
    unfold namesOf
    rw [hparts]
    rw [List.filter_append]
    have hempty : (List.replicate count "").filter (fun name => name != "" && name != ".") = [] := by
      simp
    rw [hempty]
    rw [List.nil_append]
    rw [List.filter_eq_self]
    intro name hname
    simpa using ⟨(h name hname).ne_empty, (h name hname).ne_dot⟩

theorem anchorOf_text {path : Path} (h : path.IsProper) : Anchor.ofText path.text = path.anchor := by
  obtain ⟨anchor, names⟩ := path
  cases names with
  | nil => cases anchor <;> decide
  | cons name names =>
    obtain ⟨c, rest, hc, hrest⟩ := @exists_intercalate_eq_cons name names (h name (by simp))
    rw [text_of_names_ne_nil (by simp)]
    unfold Anchor.ofText
    rw [String.toList_append]
    rw [hrest]
    cases anchor <;> simp [Anchor.text, hc]

theorem ofText_text {path : Path} (h : path.IsProper) : ofText path.text = path := by
  unfold ofText
  rw [anchorOf_text h]
  rw [namesOf_text h]

theorem absolute_text_ofText (cwd : List String) (text : String) :
    absolute cwd (ofText text).text = absolute cwd text := by
  unfold absolute
  rw [ofText_text (isProper_ofText text)]

theorem mem_foldl_step {names done : List String} {name : String}
    (h : name ∈ names.foldl collapse.step done) : name ∈ done ∨ name ∈ names ∧ name ≠ ".." := by
  induction names generalizing done with
  | nil => exact .inl h
  | cons next names ih =>
    rw [List.foldl_cons] at h
    rcases ih h with hdone | ⟨hnames, hne⟩
    . unfold collapse.step at hdone
      split at hdone
      . exact .inl (List.mem_of_mem_tail hdone)
      . next hdots =>
        rcases List.mem_cons.mp hdone with rfl | hdone
        . exact .inr ⟨by simp, by simpa using hdots⟩
        . exact .inl hdone
    . exact .inr ⟨List.mem_cons_of_mem _ hnames, hne⟩

theorem mem_collapse {names : List String} {name : String} (h : name ∈ collapse names) :
    name ∈ names ∧ name ≠ ".." := by
  rcases mem_foldl_step (List.mem_reverse.mp h) with h | h
  . simp at h
  . exact h

theorem collapse_of_no_dots {names : List String} (h : ∀ name ∈ names, name ≠ "..") :
    collapse names = names := by
  have hfoldl : ∀ done, names.foldl collapse.step done = names.reverse ++ done := by
    induction names with
    | nil => simp
    | cons name names ih =>
      rw [List.forall_mem_cons] at h
      intro done
      rw [List.foldl_cons]
      rw [ih h.2]
      simp [collapse.step, h.1]
  unfold collapse
  rw [hfoldl]
  simp

structure IsCollapsed (path : Path) : Prop where
  isAbsolute : path.isAbsolute = true
  isProper : path.IsProper
  ne_dots : ∀ name ∈ path.names, name ≠ ".."

theorem isCollapsed_absolute {cwd : List String} (hcwd : ∀ name ∈ cwd, IsStep name) (text : String) :
    (absolute cwd text).IsCollapsed := by
  have hnames := isProper_ofText text
  unfold absolute
  simp only
  split
  . next habsolute =>
    refine ⟨habsolute, ?_, ?_⟩
    . intro name hname
      exact hnames name (mem_collapse hname).1
    . intro name hname
      exact (mem_collapse hname).2
  . refine ⟨rfl, ?_, ?_⟩
    . intro name hname
      rcases List.mem_append.mp (mem_collapse hname).1 with hname | hname
      . exact hcwd name hname
      . exact hnames name hname
    . intro name hname
      exact (mem_collapse hname).2

theorem absolute_text {path : Path} (h : path.IsCollapsed) (cwd : List String) :
    absolute cwd path.text = path := by
  unfold absolute
  rw [ofText_text h.isProper]
  simp only [h.isAbsolute, ↓reduceIte]
  rw [collapse_of_no_dots h.ne_dots]

end Path

namespace Host

theorem WellFormed.isName_cwd {host : Host} (hhost : host.WellFormed) :
    ∀ name ∈ host.cwd, Node.IsName name := by
  obtain ⟨entries, hentries⟩ := hhost.cwd
  exact (hhost.tree.descend hentries).1

end Host

end ParadigmScan
