import ParadigmScan.Tally.Registers
import ParadigmScan.Value

/-!
This module contains programs on registers: the single steps, what they do to the registers and what they
answer.
-/

namespace ParadigmScan

namespace Tally

inductive Step where
  /-- A new tally with the given counts. -/
  | make (name : String) (counts : List Int)
  /-- The same tally under another name. -/
  | share (name source : String)
  /-- Adds to a tally in place. -/
  | merge (name source : String)
  /-- A new tally that is the sum of two. -/
  | add (name left right : String)
  /-- A new tally in place of an old one, to which another is added. -/
  | increase (name source : String)
  /-- A new tally that is the sum of several. -/
  | sum (name : String) (sources : List String)
  /-- Adds something that is no tally. -/
  | addOther (name source : String) (other : Value)
  /-- Whether two tallies are equal. -/
  | equal (left right : String)
  /-- The text of a tally. -/
  | describe (name : String)
  /-- A report over a tally, to be looked at later. -/
  | keep (name directory : String) (files : Int)
  /-- A report over several tallies, to be looked at later. -/
  | keepSum (sources : List String) (directory : String) (files : Int)
  /-- A report over a tally, looked at after one was added to every count of the tally. -/
  | report (name directory : String) (files : Int)
  deriving Inhabited

inductive StepError where
  | tooManyCounts (given : Nat)
  | notATally (type : String)
  deriving DecidableEq, Repr, Inhabited

namespace StepError

def message : StepError → String
  | tooManyCounts given =>
    s!"Counts.__init__() takes from 1 to 5 positional arguments but {given + 1} were given"
  | notATally type => s!"unsupported operand type(s) for +: 'Counts' and '{type}'"

end StepError

inductive StepResult where
  | nothing
  | truth (value : Bool)
  | text (value : String)
  | report (value : Report)
  | refused (error : StepError)
  deriving Inhabited

namespace Registers

/--
Takes a step. A step that is refused leaves the registers as they are.
-/
def step (regs : Registers) : Step → Registers × StepResult
  | .make name counts =>
    match Tally.ofList? counts with
    | some tally => (regs.store name tally, .nothing)
    | none => (regs, .refused (.tooManyCounts counts.length))
  | .share name source => (regs.share name source, .nothing)
  | .merge name source => (regs.merge name source, .nothing)
  | .add name left right => (regs.store name (regs.get left + regs.get right), .nothing)
  | .increase name source => (regs.store name (regs.get name + regs.get source), .nothing)
  | .sum name sources => (regs.store name (Tally.sum (sources.map regs.get)), .nothing)
  | .addOther _ _ other => (regs, .refused (.notATally other.typeName))
  | .equal left right => (regs, .truth (regs.get left == regs.get right))
  | .describe name => (regs, .text (regs.get name).describe)
  | .keep name directory files => (regs.keep directory files (regs.get name), .nothing)
  | .keepSum sources directory files => (regs.keepSum directory files sources, .nothing)
  | .report name directory files =>
    let after := (regs.keep directory files (regs.get name)).mergeNew name ⟨1, 1, 1, 1⟩
    (after, .report { directory, files, totals := after.tallyAt regs.cells.length })

def run (regs : Registers) (program : List Step) : Registers :=
  program.foldl (fun regs step => (regs.step step).1) regs

end Registers

end Tally

end ParadigmScan
