import ParadigmScan.Report

/-!
This module contains named registers that share tallies: a register refers to a cell, several
registers may refer to the same cell, and merging into one of them is seen through all of them. Every
other operation leaves the cells that already exist as they are. A report over a tally keeps a copy of it in
a cell that no register refers to.
-/

namespace ParadigmScan

namespace Tally

inductive Part where
  | classes
  | methods
  | functions
  | arrows
  deriving DecidableEq, Repr, Inhabited

def Part.all : List Part := [.classes, .methods, .functions, .arrows]

def count (t : Tally) : Part → Int
  | .classes => t.classes
  | .methods => t.methods
  | .functions => t.functions
  | .arrows => t.arrows

def increase (t : Tally) (amount : Int) : Part → Tally
  | .classes => { t with classes := t.classes + amount }
  | .methods => { t with methods := t.methods + amount }
  | .functions => { t with functions := t.functions + amount }
  | .arrows => { t with arrows := t.arrows + amount }

/--
A report as it is kept: its totals are in a cell.
-/
structure KeptReport where
  directory : String
  files : Int
  cell : Nat
  deriving DecidableEq, Repr, Inhabited

/--
Cells holding tallies, the cell that each register refers to, and the reports that were built so far.
-/
structure Registers where
  cells : List Tally := []
  names : List (String × Nat) := []
  reports : List KeptReport := []
  deriving DecidableEq, Inhabited

namespace Registers

def tallyAt (regs : Registers) (cell : Nat) : Tally :=
  regs.cells.getD cell zero

def cell? (regs : Registers) (name : String) : Option Nat :=
  regs.names.lookup name

def get (regs : Registers) (name : String) : Tally :=
  ((regs.cell? name).map regs.tallyAt).getD zero

def bind (regs : Registers) (name : String) (cell : Nat) : Registers :=
  { regs with names := (name, cell) :: regs.names.filter (·.1 != name) }

def grow (regs : Registers) (value : Tally) : Registers :=
  { regs with cells := regs.cells ++ [value] }

def store (regs : Registers) (name : String) (value : Tally) : Registers :=
  (regs.grow value).bind name regs.cells.length

def share (regs : Registers) (name source : String) : Registers :=
  match regs.cell? source with
  | some cell => regs.bind name cell
  | none => regs

def mergePart (regs : Registers) (target source : Nat) (part : Part) : Registers :=
  { regs with cells := regs.cells.modify target (·.increase ((regs.tallyAt source).count part) part) }

/--
Adds a cell to another one in place, count by count. Every count is read when its turn comes, so if the
cells are the same, the counts before it have changed by then.
-/
def mergeCell (regs : Registers) (target source : Nat) : Registers :=
  Part.all.foldl (fun regs part => regs.mergePart target source part) regs

def merge (regs : Registers) (name source : String) : Registers :=
  match regs.cell? name, regs.cell? source with
  | some target, some cell => regs.mergeCell target cell
  | _, _ => regs

def mergeNew (regs : Registers) (name : String) (value : Tally) : Registers :=
  match regs.cell? name with
  | some target => (regs.grow value).mergeCell target regs.cells.length
  | none => regs

/--
Builds a report over a tally. The report keeps a copy of the tally in a cell of its own.
-/
def keep (regs : Registers) (directory : String) (files : Int) (totals : Tally) : Registers :=
  let report : KeptReport := { directory, files, cell := regs.cells.length }
  { regs.grow totals with reports := regs.reports ++ [report] }

def keepSum (regs : Registers) (directory : String) (files : Int) (sources : List String) : Registers :=
  let total := regs.cells.length
  let merged := (sources.filterMap regs.cell?).foldl (·.mergeCell total ·) (regs.grow zero)
  merged.keep directory files (merged.tallyAt total)

def shown (regs : Registers) : List Report :=
  regs.reports.map fun report =>
    { directory := report.directory, files := report.files, totals := regs.tallyAt report.cell }

def toList (regs : Registers) : List (String × Tally) :=
  (regs.names.map fun (name, _) => (name, regs.get name)).mergeSort (fun a b => a.1 ≤ b.1)

end Registers

end Tally

end ParadigmScan
