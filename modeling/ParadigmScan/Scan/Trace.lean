import ParadigmScan.Failure
import ParadigmScan.Log.Record

/-!
This module contains the steps of a scan that others can watch: log records, the number of files found, and
the calls of the parser. An operation of a scan adds steps and may end early.
-/

namespace ParadigmScan

inductive Event where
  | logged (record : Log.Record)
  | found (files : Nat)
  | parsed (dialect : Dialect) (bytes : List UInt8)
  deriving Inhabited

/--
An engine that a parser builds to read sources of one language.
-/
structure Engine where
  language : Language
  deriving DecidableEq, Repr, Inhabited

namespace Engine

def ofDialect (dialect : Dialect) : Engine := { language := dialect.language }

end Engine

/--
The engines that a parser keeps for the dialects it was used for, by first use. An engine is found under the dialect
that it was built for.
-/
structure Engines where
  table : List (Dialect × Engine)
  eq_ofDialect : ∀ entry ∈ table, entry.2 = .ofDialect entry.1

namespace Engines

def empty : Engines where
  table := []
  eq_ofDialect := List.forall_mem_nil _

instance : Inhabited Engines := ⟨empty⟩

def get? (engines : Engines) (dialect : Dialect) : Option Engine :=
  engines.table.lookup dialect

def dialects (engines : Engines) : List Dialect := engines.table.map (·.1)

def add (engines : Engines) (dialect : Dialect) : Engines where
  table := engines.table ++ [(dialect, .ofDialect dialect)]
  eq_ofDialect := by
    intro entry hentry
    rcases List.mem_append.mp hentry with hentry | hentry
    . exact engines.eq_ofDialect entry hentry
    . rw [List.mem_singleton.mp hentry]

theorem eq_of_get? {engines : Engines} {dialect : Dialect} {engine : Engine}
    (h : engines.get? dialect = some engine) : engine = .ofDialect dialect := by
  obtain ⟨before, behind, htable, -⟩ := List.lookup_eq_some_iff.mp h
  exact engines.eq_ofDialect (dialect, engine) (by simp [htable])

theorem get?_eq_none_iff {engines : Engines} {dialect : Dialect} :
    engines.get? dialect = none ↔ dialect ∉ engines.dialects := by
  unfold get? dialects
  rw [List.lookup_eq_none_iff]
  grind

theorem dialects_add (engines : Engines) (dialect : Dialect) :
    (engines.add dialect).dialects = engines.dialects ++ [dialect] := by
  simp [dialects, add]

end Engines

/--
What happened so far: the steps in order, and the engines that the parser keeps.
-/
structure Trace where
  events : List Event := []
  ready : Engines := .empty
  deriving Inhabited

namespace Trace

def records (trace : Trace) : List Log.Record :=
  trace.events.filterMap fun
    | .logged record => some record
    | _ => none

def found (trace : Trace) : List Nat :=
  trace.events.filterMap fun
    | .found files => some files
    | _ => none

def calls (trace : Trace) : List (Dialect × List UInt8) :=
  trace.events.filterMap fun
    | .parsed dialect bytes => some (dialect, bytes)
    | _ => none

end Trace

abbrev Scan := ExceptT Failure (StateM Trace)

namespace Scan

def outcome (scan : Scan α) (start : Trace := {}) : Except Failure α × Trace :=
  scan.run.run start

def emit (event : Event) : Scan Unit :=
  modify fun trace => { trace with events := trace.events ++ [event] }

def log (record : Log.Record) : Scan Unit := emit (.logged record)

def debug (logger message : String) : Scan Unit := log (Log.debug logger message)

def report (problem : Problem) : Scan α := throw (.problem problem)

def pass (fault : Fault) : Scan α := throw (.fault fault)

end Scan

end ParadigmScan
