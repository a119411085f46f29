import Mathlib.Data.List.Infix
import Mathlib.Tactic.Ring
import ParadigmScan.Proofs.Tally.Merging
import ParadigmScan.Tally.Program

/-!
This module contains which steps of a program change tallies that exist. Only a merge does. It changes one cell, and
all registers that refer to the cell see the change. No register refers to the cell of a report, so a report shows for
good what its tally was when the report was built.
-/

namespace ParadigmScan

namespace Tally

/--
A way to add tallies up: which of them are added to which, and in which order.
-/
inductive Grouping where
  | nothing
  | one (tally : Tally)
  | both (left right : Grouping)

namespace Grouping

def total : Grouping → Tally
  | nothing => zero
  | one tally => tally
  | both left right => left.total + right.total

def tallies : Grouping → List Tally
  | nothing => []
  | one tally => [tally]
  | both left right => left.tallies ++ right.tallies

theorem total_eq_sum (grouping : Grouping) : grouping.total = grouping.tallies.sum := by
  induction grouping with
  | nothing => rfl
  | one tally => simp [total, tallies]
  | both left right hleft hright =>
    rw [total]
    rw [tallies]
    rw [List.sum_append]
    rw [hleft]
    rw [hright]

end Grouping

def Step.merges : Step → Bool
  | merge .. => true
  | report .. => true
  | _ => false

namespace Registers

variable {regs : Registers} {name source other : String} {target cell : Nat}

theorem lookup_filter_ne (names : List (String × Nat)) (h : other ≠ name) :
    (names.filter (·.1 != name)).lookup other = names.lookup other := by
  induction names with
  | nil => rfl
  | cons entry names ih =>
    obtain ⟨first, cell⟩ := entry
    by_cases hfirst : first = name
    . subst hfirst
      simp [List.lookup_cons, ih, beq_eq_false_iff_ne.mpr h]
    . simp [List.lookup_cons, ih, hfirst]

theorem cell?_bind_self (regs : Registers) (name : String) (cell : Nat) :
    (regs.bind name cell).cell? name = some cell := by
  simp [cell?, bind]

theorem cell?_bind_of_ne (regs : Registers) (cell : Nat) (h : other ≠ name) :
    (regs.bind name cell).cell? other = regs.cell? other := by
  unfold cell? bind
  rw [List.lookup_cons]
  rw [beq_eq_false_iff_ne.mpr h]
  apply lookup_filter_ne
  exact h

theorem cell?_share (h : regs.cell? source = some cell) (name : String) :
    (regs.share name source).cell? name = some cell := by
  unfold share
  rw [h]
  apply cell?_bind_self

theorem mem_names_of_cell? (h : regs.cell? name = some cell) : (name, cell) ∈ regs.names := by
  obtain ⟨before, after, hnames, -⟩ := List.lookup_eq_some_iff.mp h
  rw [hnames]
  simp

theorem get_of_cell? (h : regs.cell? name = some cell) : regs.get name = regs.tallyAt cell := by
  simp [get, h]

theorem get_of_cell?_eq_none (h : regs.cell? name = none) : regs.get name = 0 := by
  simp only [get, h, Option.map_none, Option.getD_none]
  rfl

/--
Every register and every report refers to a cell, and none of the registers to that of a report.
-/
structure IsSeparated (regs : Registers) : Prop where
  names_lt : ∀ entry ∈ regs.names, entry.2 < regs.cells.length
  reports_lt : ∀ report ∈ regs.reports, report.cell < regs.cells.length
  apart : ∀ entry ∈ regs.names, ∀ report ∈ regs.reports, entry.2 ≠ report.cell

theorem IsSeparated.cell?_lt (h : regs.IsSeparated) (hcell : regs.cell? name = some cell) :
    cell < regs.cells.length :=
  h.names_lt _ (mem_names_of_cell? hcell)

/--
The registers may have changed, but the reports go on showing the same. More reports may have been built.
-/
structure Evolves (before after : Registers) : Prop where
  isSeparated : after.IsSeparated
  shown : before.shown <+: after.shown

theorem IsSeparated.evolves (h : regs.IsSeparated) : Evolves regs regs :=
  ⟨h, List.prefix_rfl⟩

theorem Evolves.trans {before middle after : Registers} (h : Evolves before middle)
    (h' : Evolves middle after) : Evolves before after :=
  ⟨h'.isSeparated, h.shown.trans h'.shown⟩

theorem shown_congr (before after : Registers) (hreports : after.reports = before.reports)
    (h : ∀ report ∈ before.reports, after.tallyAt report.cell = before.tallyAt report.cell) :
    after.shown = before.shown := by
  unfold shown
  rw [hreports]
  apply List.map_congr_left
  intro report hreport
  rw [h report hreport]

theorem IsSeparated.shown_grow (h : regs.IsSeparated) (value : Tally) :
    (regs.grow value).shown = regs.shown := by
  apply shown_congr regs (regs.grow value) rfl
  intro report hreport
  apply tallyAt_grow
  exact h.reports_lt report hreport

theorem IsSeparated.evolves_grow (h : regs.IsSeparated) (value : Tally) :
    Evolves regs (regs.grow value) where
  isSeparated := by
    refine ⟨?_, ?_, h.apart⟩
    . intro entry hentry
      have hlt := h.names_lt entry hentry
      rw [length_cells_grow]
      omega
    . intro report hreport
      have hlt := h.reports_lt report hreport
      rw [length_cells_grow]
      omega
  shown := by
    rw [h.shown_grow]

theorem IsSeparated.evolves_bind (h : regs.IsSeparated) (name : String)
    (hcell : cell < regs.cells.length) (hreports : ∀ report ∈ regs.reports, cell ≠ report.cell) :
    Evolves regs (regs.bind name cell) where
  isSeparated := by
    have hnames : ∀ entry ∈ (regs.bind name cell).names, entry = (name, cell) ∨ entry ∈ regs.names := by
      intro entry hentry
      refine (List.mem_cons.mp hentry).imp_right ?_
      exact List.mem_of_mem_filter
    refine ⟨?_, h.reports_lt, ?_⟩
    . intro entry hentry
      rcases hnames entry hentry with rfl | hold
      . exact hcell
      . exact h.names_lt entry hold
    . intro entry hentry
      rcases hnames entry hentry with rfl | hold
      . exact hreports
      . exact h.apart entry hold
  shown := List.prefix_rfl

theorem IsSeparated.evolves_store (h : regs.IsSeparated) (name : String) (value : Tally) :
    Evolves regs (regs.store name value) := by
  have hgrow := h.evolves_grow value
  apply hgrow.trans
  apply hgrow.isSeparated.evolves_bind
  . rw [length_cells_grow]
    omega
  . intro report hreport
    have hlt := h.reports_lt report hreport
    omega

theorem IsSeparated.evolves_share (h : regs.IsSeparated) (name source : String) :
    Evolves regs (regs.share name source) := by
  unfold share
  split
  . next cell hcell =>
    apply h.evolves_bind
    . exact h.cell?_lt hcell
    . exact h.apart _ (mem_names_of_cell? hcell)
  . exact h.evolves

theorem IsSeparated.evolves_mergeCell (h : regs.IsSeparated) (source : Nat)
    (hcell : regs.cell? name = some target) : Evolves regs (regs.mergeCell target source) where
  isSeparated := by
    have hlength := length_cells_mergeCell regs target source
    refine ⟨?_, ?_, h.apart⟩
    . rw [hlength]
      exact h.names_lt
    . rw [hlength]
      exact h.reports_lt
  shown := by
    have hshown : (regs.mergeCell target source).shown = regs.shown := by
      apply shown_congr regs (regs.mergeCell target source) rfl
      intro report hreport
      apply tallyAt_eq_of_getElem?_eq
      apply getElem?_mergeCell_of_ne
      exact (h.apart _ (mem_names_of_cell? hcell) report hreport).symm
    rw [hshown]

theorem IsSeparated.evolves_merge (h : regs.IsSeparated) (name source : String) :
    Evolves regs (regs.merge name source) := by
  unfold merge
  split
  . next hcell _ => exact h.evolves_mergeCell _ hcell
  . exact h.evolves

theorem IsSeparated.evolves_mergeNew (h : regs.IsSeparated) (name : String) (value : Tally) :
    Evolves regs (regs.mergeNew name value) := by
  have hgrow := h.evolves_grow value
  unfold mergeNew
  split
  . next hcell => exact hgrow.trans (hgrow.isSeparated.evolves_mergeCell _ hcell)
  . exact h.evolves

theorem IsSeparated.shown_keep (h : regs.IsSeparated) (directory : String) (files : Int)
    (totals : Tally) :
    (regs.keep directory files totals).shown = regs.shown ++ [⟨directory, files, totals⟩] := by
  have hold : (regs.keep directory files totals).shown =
      (regs.grow totals).shown ++
        [⟨directory, files, (regs.grow totals).tallyAt regs.cells.length⟩] :=
    List.map_append
  rw [hold]
  rw [h.shown_grow]
  rw [tallyAt_grow_length]

theorem IsSeparated.evolves_keep (h : regs.IsSeparated) (directory : String) (files : Int)
    (totals : Tally) : Evolves regs (regs.keep directory files totals) where
  isSeparated := by
    have hgrow := (h.evolves_grow totals).isSeparated
    have hreports : ∀ report ∈ (regs.keep directory files totals).reports,
        report ∈ regs.reports ∨ report.cell = regs.cells.length := by
      intro report hreport
      refine (List.mem_append.mp hreport).imp_right ?_
      intro hlast
      rw [List.mem_singleton.mp hlast]
    refine ⟨hgrow.names_lt, ?_, ?_⟩
    . intro report hreport
      rcases hreports report hreport with hold | hlast
      . exact hgrow.reports_lt report hold
      . rw [hlast]
        simp [keep]
    . intro entry hentry report hreport
      rcases hreports report hreport with hold | hlast
      . exact hgrow.apart entry hentry report hold
      . have hlt := h.names_lt entry hentry
        omega
  shown := by
    rw [h.shown_keep]
    apply List.prefix_append

theorem sum_map_get (regs : Registers) (sources : List String) :
    Tally.sum ((sources.filterMap regs.cell?).map regs.tallyAt) = Tally.sum (sources.map regs.get) := by
  rw [sum_eq]
  rw [sum_eq]
  induction sources with
  | nil => rfl
  | cons source sources ih =>
    rw [List.map_cons]
    rw [List.sum_cons]
    rw [← ih]
    cases hcell : regs.cell? source with
    | none => simp [hcell, get_of_cell?_eq_none hcell]
    | some cell => simp [hcell, get_of_cell? hcell]

theorem IsSeparated.keepSum_eq (h : regs.IsSeparated) (directory : String) (files : Int)
    (sources : List String) :
    regs.keepSum directory files sources =
      (regs.grow (Tally.sum (sources.map regs.get))).keep directory files
        (Tally.sum (sources.map regs.get)) := by
  have hsources : ∀ cell ∈ sources.filterMap regs.cell?, cell < regs.cells.length := by
    intro cell hcell
    obtain ⟨name, -, hname⟩ := List.mem_filterMap.mp hcell
    exact h.cell?_lt hname
  have hmerged := foldl_mergeCell_grow zero hsources
  rw [sum_map_get] at hmerged
  change _ = regs.grow (0 + _) at hmerged
  rw [zero_add] at hmerged
  unfold keepSum
  simp only [hmerged, tallyAt_grow_length]

theorem IsSeparated.evolves_keepSum (h : regs.IsSeparated) (directory : String) (files : Int)
    (sources : List String) : Evolves regs (regs.keepSum directory files sources) := by
  have hgrow := h.evolves_grow (Tally.sum (sources.map regs.get))
  rw [h.keepSum_eq]
  exact hgrow.trans (hgrow.isSeparated.evolves_keep _ _ _)

theorem IsSeparated.shown_keepSum (h : regs.IsSeparated) (directory : String) (files : Int)
    (sources : List String) :
    (regs.keepSum directory files sources).shown =
      regs.shown ++ [Report.ofTallies directory files (sources.map regs.get)] := by
  rw [h.keepSum_eq]
  rw [(h.evolves_grow _).isSeparated.shown_keep]
  rw [h.shown_grow]
  rfl

theorem IsSeparated.evolves_step (h : regs.IsSeparated) (step : Step) :
    Evolves regs (regs.step step).1 := by
  cases step with
  | make name counts =>
    unfold Registers.step
    dsimp only
    split
    . exact h.evolves_store _ _
    . exact h.evolves
  | share name source => exact h.evolves_share name source
  | merge name source => exact h.evolves_merge name source
  | add name left right => exact h.evolves_store _ _
  | increase name source => exact h.evolves_store _ _
  | sum name sources => exact h.evolves_store _ _
  | addOther name source other => exact h.evolves
  | equal left right => exact h.evolves
  | describe name => exact h.evolves
  | keep name directory files => exact h.evolves_keep _ _ _
  | keepSum sources directory files => exact h.evolves_keepSum _ _ _
  | report name directory files =>
    have hkeep := h.evolves_keep directory files (regs.get name)
    exact hkeep.trans (hkeep.isSeparated.evolves_mergeNew _ _)

theorem IsSeparated.evolves_run (h : regs.IsSeparated) (program : List Step) :
    Evolves regs (regs.run program) := by
  induction program generalizing regs with
  | nil => exact h.evolves
  | cons step program ih =>
    have hstep := h.evolves_step step
    exact hstep.trans (ih hstep.isSeparated)

theorem isSeparated_run (program : List Step) : (({} : Registers).run program).IsSeparated := by
  have hempty : ({} : Registers).IsSeparated := by
    constructor <;> simp
  exact (hempty.evolves_run program).isSeparated

theorem isPrefix_grow (regs : Registers) (value : Tally) : regs.cells <+: (regs.grow value).cells :=
  List.prefix_append _ _

theorem IsSeparated.isPrefix_step (h : regs.IsSeparated) {step : Step} (hstep : step.merges = false) :
    regs.cells <+: (regs.step step).1.cells := by
  cases step with
  | make name counts =>
    unfold Registers.step
    dsimp only
    split
    . apply isPrefix_grow
    . rfl
  | share name source =>
    change regs.cells <+: (regs.share name source).cells
    unfold share
    split <;> rfl
  | merge name source => cases hstep
  | add name left right => apply isPrefix_grow
  | increase name source => apply isPrefix_grow
  | sum name sources => apply isPrefix_grow
  | addOther name source other => rfl
  | equal left right => rfl
  | describe name => rfl
  | keep name directory files => apply isPrefix_grow
  | keepSum sources directory files =>
    change regs.cells <+: (regs.keepSum directory files sources).cells
    rw [h.keepSum_eq]
    exact (isPrefix_grow _ _).trans (isPrefix_grow _ _)
  | report name directory files => cases hstep

theorem step_of_refused {step : Step} {error : StepError} (h : (regs.step step).2 = .refused error) :
    (regs.step step).1 = regs := by
  cases step with
  | make name counts =>
    unfold Registers.step at h ⊢
    dsimp only at h ⊢
    split at h
    . cases h
    . rfl
  | addOther name source other => rfl
  | _ => cases h

/--
A register refers to a new cell. Nothing else has changed.
-/
structure BindsNew (before after : Registers) (name : String) (value : Tally) : Prop where
  cells : after.cells = before.cells ++ [value]
  cell?_self : after.cell? name = some before.cells.length
  cell?_other : ∀ other, other ≠ name → after.cell? other = before.cell? other

theorem bindsNew_store (regs : Registers) (name : String) (value : Tally) :
    BindsNew regs (regs.store name value) name value where
  cells := rfl
  cell?_self := cell?_bind_self _ _ _
  cell?_other _ h := cell?_bind_of_ne _ _ h

/--
A tally was added in place to the one that a register refers to. All registers that refer to the same cell show the
sum, and all other cells that existed are as they were.
-/
structure AddsTo (before after : Registers) (name : String) (value : Tally) : Prop where
  names : after.names = before.names
  shared : ∀ cell other, before.cell? name = some cell → before.cell? other = some cell →
    ∀ part, (after.get other).count part = (before.get name).count part + value.count part
  others : ∀ cell, cell < before.cells.length → before.cell? name ≠ some cell →
    after.cells[cell]? = before.cells[cell]?

theorem cell?_congr {before after : Registers} (h : after.names = before.names) (name : String) :
    after.cell? name = before.cell? name := by
  unfold cell?
  rw [h]

theorem addsTo_of_cell?_eq_none (h : regs.cell? name = none) (value : Tally) :
    AddsTo regs regs name value where
  names := rfl
  shared cell other hname := by simp [h] at hname
  others _ _ _ := rfl

theorem addsTo_zero (regs : Registers) (name : String) : AddsTo regs regs name 0 where
  names := rfl
  shared cell other hname hother part := by
    rw [get_of_cell? hname]
    rw [get_of_cell? hother]
    rw [← count_add]
    rw [add_zero]
  others _ _ _ := rfl

theorem IsSeparated.addsTo_mergeCell (h : regs.IsSeparated) (source : Nat)
    (hcell : regs.cell? name = some target) :
    AddsTo regs (regs.mergeCell target source) name (regs.tallyAt source) where
  names := rfl
  shared cell other hname hother part := by
    obtain rfl : target = cell := by simpa [hcell] using hname
    have hafter : (regs.mergeCell target source).cell? other = some target := hother
    rw [get_of_cell? hafter]
    rw [get_of_cell? hname]
    rw [tallyAt_mergeCell_self (h.cell?_lt hcell)]
    rw [count_add]
  others cell _ hne := by
    apply getElem?_mergeCell_of_ne
    rintro rfl
    exact hne hcell

theorem IsSeparated.addsTo_merge (h : regs.IsSeparated) (name source : String) :
    AddsTo regs (regs.merge name source) name (regs.get source) := by
  unfold merge
  cases hname : regs.cell? name with
  | none => exact addsTo_of_cell?_eq_none hname _
  | some target =>
    cases hsource : regs.cell? source with
    | none =>
      -- a register that was never bound shows nothing, so the merge leaves the cell as it is
      rw [get_of_cell?_eq_none hsource]
      apply addsTo_zero
    | some cell =>
      rw [get_of_cell? hsource]
      exact h.addsTo_mergeCell cell hname

theorem AddsTo.of_isPrefix {middle after : Registers} {value : Tally}
    (hadds : AddsTo middle after name value) (h : regs.IsSeparated)
    (hnames : middle.names = regs.names) (hcells : regs.cells <+: middle.cells) :
    AddsTo regs after name value := by
  have hold : ∀ cell, cell < regs.cells.length → middle.cells[cell]? = regs.cells[cell]? := by
    intro cell hcell
    obtain ⟨new, hnew⟩ := hcells
    rw [← hnew]
    exact List.getElem?_append_left hcell
  refine ⟨hadds.names.trans hnames, ?_, ?_⟩
  . intro cell other hname hother part
    have hname' := (cell?_congr hnames name).trans hname
    have hother' := (cell?_congr hnames other).trans hother
    rw [hadds.shared cell other hname' hother' part]
    rw [get_of_cell? hname]
    rw [get_of_cell? hname']
    rw [tallyAt_eq_of_getElem?_eq (hold cell (h.cell?_lt hname))]
  . intro cell hlt hne
    rw [hadds.others cell]
    . exact hold cell hlt
    . exact hlt.trans_le hcells.length_le
    . rw [cell?_congr hnames name]
      exact hne

theorem IsSeparated.addsTo_mergeNew (h : regs.IsSeparated) (name : String) (value : Tally) :
    AddsTo regs (regs.mergeNew name value) name value := by
  unfold mergeNew
  cases hname : regs.cell? name with
  | none => exact addsTo_of_cell?_eq_none hname value
  | some target =>
    have hadds := (h.evolves_grow value).isSeparated.addsTo_mergeCell regs.cells.length hname
    rw [tallyAt_grow_length] at hadds
    exact hadds.of_isPrefix h rfl (isPrefix_grow _ _)

theorem IsSeparated.step_report (h : regs.IsSeparated) (name directory : String) (files : Int) :
    AddsTo regs (regs.step (.report name directory files)).1 name ⟨1, 1, 1, 1⟩ ∧
      (regs.step (.report name directory files)).2 = .report ⟨directory, files, regs.get name⟩ := by
  have hkeep := (h.evolves_keep directory files (regs.get name)).isSeparated
  constructor
  . exact (hkeep.addsTo_mergeNew name ⟨1, 1, 1, 1⟩).of_isPrefix h rfl (isPrefix_grow _ _)
  -- the cell of the report is one of those that the merge leaves as they are: no register refers to it
  . have hsame := (hkeep.addsTo_mergeNew name ⟨1, 1, 1, 1⟩).others regs.cells.length
      (by simp [keep])
      (fun hcell => (h.cell?_lt hcell).ne rfl)
    have htotals := tallyAt_eq_of_getElem?_eq hsame
    change _ = (regs.grow (regs.get name)).tallyAt regs.cells.length at htotals
    rw [tallyAt_grow_length] at htotals
    simp only [Registers.step, htotals]

/--
What steps do after any program. A step that does not merge leaves every tally that exists as it is: a register can be
made to refer to the tally of another one, sums are new tallies, also where they replace what a register shows, and a
step that is refused changes nothing at all. A merge adds what one register shows to what another one refers to, as seen
by all registers that refer to it, and to nothing else. It doubles every count if both refer to the same tally. A report
shows what its tally was when it was built, after whatever steps follow. The totals of a report over several tallies are
their sum, in whatever order and grouping they are added up.
-/
theorem only_merges_mutate (program : List Step) :
    let regs := ({} : Registers).run program
    (∀ step : Step, step.merges = false → regs.cells <+: (regs.step step).1.cells) ∧
    (∀ name source cell, regs.cell? source = some cell →
      (regs.step (.share name source)).1.cell? name = some cell) ∧
    (∀ name left right, BindsNew regs (regs.step (.add name left right)).1 name
      (regs.get left + regs.get right)) ∧
    (∀ name source, BindsNew regs (regs.step (.increase name source)).1 name
      (regs.get name + regs.get source)) ∧
    (∀ name sources, BindsNew regs (regs.step (.sum name sources)).1 name
      (Tally.sum (sources.map regs.get))) ∧
    (∀ name source other, ∃ error, (regs.step (.addOther name source other)).2 = .refused error) ∧
    (∀ step error, (regs.step step).2 = .refused error → (regs.step step).1 = regs) ∧
    (∀ name source, AddsTo regs (regs.step (.merge name source)).1 name (regs.get source)) ∧
    (∀ name source cell, regs.cell? name = some cell → regs.cell? source = some cell → ∀ part,
      ((regs.step (.merge name source)).1.get source).count part = 2 * (regs.get source).count part) ∧
    (∀ name directory files later, regs.shown ++ [⟨directory, files, regs.get name⟩] <+:
      ((regs.step (.keep name directory files)).1.run later).shown) ∧
    (∀ name directory files,
      AddsTo regs (regs.step (.report name directory files)).1 name ⟨1, 1, 1, 1⟩ ∧
      (regs.step (.report name directory files)).2 = .report ⟨directory, files, regs.get name⟩) ∧
    (∀ sources directory files later,
      regs.shown ++ [Report.ofTallies directory files (sources.map regs.get)] <+:
        ((regs.step (.keepSum sources directory files)).1.run later).shown) ∧
    ∀ (tallies : List Tally) (grouping : Grouping) (directory : String) (files : Int),
      grouping.tallies.Perm tallies →
        (Report.ofTallies directory files tallies).totals = tallies.foldl (· + ·) zero ∧
        (Report.ofTallies directory files tallies).totals = grouping.total := by
  intro regs
  have h : regs.IsSeparated := isSeparated_run program
  refine ⟨fun _ hstep => h.isPrefix_step hstep, fun name _ _ hcell => cell?_share hcell name,
    fun _ _ _ => bindsNew_store _ _ _, fun _ _ => bindsNew_store _ _ _, fun _ _ => bindsNew_store _ _ _,
    fun _ _ _ => ⟨_, rfl⟩, fun _ _ => step_of_refused, h.addsTo_merge, ?_, ?_, h.step_report, ?_, ?_⟩
  . intro name source cell hname hsource part
    refine ((h.addsTo_merge name source).shared cell source hname hsource part).trans ?_
    rw [get_of_cell? hname]
    rw [get_of_cell? hsource]
    ring
  . intro name directory files later
    have hkeep := h.evolves_keep directory files (regs.get name)
    rw [← h.shown_keep]
    exact (hkeep.isSeparated.evolves_run later).shown
  . intro sources directory files later
    have hkeep := h.evolves_keepSum directory files sources
    rw [← h.shown_keepSum]
    exact (hkeep.isSeparated.evolves_run later).shown
  . intro tallies grouping directory files hperm
    refine ⟨rfl, ?_⟩
    rw [grouping.total_eq_sum]
    rw [hperm.sum_eq]
    apply sum_eq

def sharedProgram : List Step := [.make "a" [1, 2], .share "b" "a", .make "c" [0, 0, 7]]

theorem only_merges_mutate_sharedProgram :
    let regs := ({} : Registers).run sharedProgram
    (Step.merges (.share "c" "a") = false ∧ regs.cells <+: (regs.step (.share "c" "a")).1.cells) ∧
    (regs.cell? "a" = some 0 ∧ regs.cell? "b" = some 0 ∧
      ∀ part, ((regs.step (.merge "a" "b")).1.get "b").count part = 2 * (regs.get "b").count part) ∧
    ((regs.step (.make "c" [1, 2, 3, 4, 5])).2 = .refused (.tooManyCounts 5) ∧
      (regs.step (.make "c" [1, 2, 3, 4, 5])).1 = regs) ∧
    ([⟨0, 0, 7, 0⟩, ⟨1, 2, 0, 0⟩] : List Tally).Perm [⟨1, 2, 0, 0⟩, ⟨0, 0, 7, 0⟩] ∧
    (Report.ofTallies "d" 2 [⟨1, 2, 0, 0⟩, ⟨0, 0, 7, 0⟩]).totals =
      (Grouping.both (.one ⟨0, 0, 7, 0⟩) (.one ⟨1, 2, 0, 0⟩)).total := by
  obtain ⟨hkept, -, -, -, -, -, hrefused, -, hdoubled, -, -, -, hgrouped⟩ :=
    only_merges_mutate sharedProgram
  have hperm : ([⟨0, 0, 7, 0⟩, ⟨1, 2, 0, 0⟩] : List Tally).Perm [⟨1, 2, 0, 0⟩, ⟨0, 0, 7, 0⟩] :=
    .swap _ _ _
  exact ⟨⟨rfl, hkept (.share "c" "a") rfl⟩, ⟨rfl, rfl, hdoubled "a" "b" 0 rfl rfl⟩,
    ⟨rfl, hrefused (.make "c" [1, 2, 3, 4, 5]) _ rfl⟩, hperm,
    (hgrouped _ (.both (.one ⟨0, 0, 7, 0⟩) (.one ⟨1, 2, 0, 0⟩)) "d" 2 hperm).2⟩

end Registers

end Tally

end ParadigmScan
