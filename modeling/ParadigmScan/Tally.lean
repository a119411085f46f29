/-!
This module contains the four running totals that every scan adds up: classes, methods, functions
and arrow functions, together with the two paradigm totals derived from them.
-/

namespace ParadigmScan

structure Tally where
  classes : Int := 0
  methods : Int := 0
  functions : Int := 0
  arrows : Int := 0
  deriving DecidableEq, Repr, Inhabited

namespace Tally

def zero : Tally := {}

def add (a b : Tally) : Tally where
  classes := a.classes + b.classes
  methods := a.methods + b.methods
  functions := a.functions + b.functions
  arrows := a.arrows + b.arrows

instance : Add Tally := ⟨add⟩

def sum (tallies : List Tally) : Tally :=
  tallies.foldl (· + ·) zero

def oop (t : Tally) : Int := t.classes + t.methods

def fp (t : Tally) : Int := t.functions + t.arrows

@[simp]
theorem classes_add (a b : Tally) : (a + b).classes = a.classes + b.classes := rfl

@[simp]
theorem methods_add (a b : Tally) : (a + b).methods = a.methods + b.methods := rfl

@[simp]
theorem functions_add (a b : Tally) : (a + b).functions = a.functions + b.functions := rfl

@[simp]
theorem arrows_add (a b : Tally) : (a + b).arrows = a.arrows + b.arrows := rfl

/--
Fills the fields from the left; the fields that the list does not reach stay zero. Refuses a list
with more entries than there are fields.
-/
def ofList? : List Int → Option Tally
  | [] => some {}
  | [c] => some { classes := c }
  | [c, m] => some { classes := c, methods := m }
  | [c, m, f] => some { classes := c, methods := m, functions := f }
  | [c, m, f, a] => some { classes := c, methods := m, functions := f, arrows := a }
  | _ => none

def toList (t : Tally) : List Int := [t.classes, t.methods, t.functions, t.arrows]

def describe (t : Tally) : String :=
  s!"Counts(classes={t.classes}, methods={t.methods}, functions={t.functions}, " ++
    s!"arrow_functions={t.arrows})"

end Tally

end ParadigmScan
