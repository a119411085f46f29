import ParadigmScan.Proofs.FirstUse
import ParadigmScan.Proofs.Scan.Completion

/-!
This module contains what a parser keeps between its calls: one engine for every dialect that it was used for. An engine
is announced once, when it is built, and what a call answers does not depend on the calls before it.
-/

namespace ParadigmScan

namespace Parser

def callAll (parser : Parser) : List (Dialect × List UInt8) →
    Scan (List (Except ParserFault (Option Tree)))
  | [] => pure []
  | (dialect, bytes) :: rest => do
    let result ← parser.call dialect bytes
    let others ← parser.callAll rest
    return result :: others

theorem announcement_injective : Function.Injective announcement := by
  intro first second h
  have hmessage := congrArg Log.Record.message h
  revert hmessage
  cases first <;> cases second <;> decide

end Parser

namespace Trace

variable {parser : Parser} {trace : Trace} {used : List Dialect} {call : Dialect × List UInt8}

def called (parser : Parser) (trace : Trace) (call : Dialect × List UInt8) : Trace :=
  { trace.prepared parser call.1 with
    events := (trace.prepared parser call.1).events ++ [.parsed call.1 call.2] }

theorem called_of_mem (h : call.1 ∈ trace.ready.dialects) :
    trace.called parser call =
      { trace with events := trace.events ++ [.parsed call.1 call.2] } := by
  simp [called, prepared, h]

theorem called_of_notMem (hannounces : parser.announces = true) (h : call.1 ∉ trace.ready.dialects) :
    trace.called parser call =
      { events := trace.events ++ [.logged (Parser.announcement call.1), .parsed call.1 call.2]
        ready := trace.ready.add call.1 } := by
  simp [called, prepared, hannounces, h]

/--
There is an engine for every dialect that was used and for no other one, by first use, and the log holds their
announcements.
-/
structure IsPrepared (used : List Dialect) (trace : Trace) : Prop where
  mem_ready_iff : ∀ dialect, dialect ∈ trace.ready.dialects ↔ dialect ∈ used
  byFirstUse : ByFirstUse trace.ready.dialects used
  records : trace.records = trace.ready.dialects.map Parser.announcement

theorem isPrepared_empty : ({} : Trace).IsPrepared [] :=
  ⟨fun _ => Iff.rfl, .nil, rfl⟩

theorem IsPrepared.called (h : trace.IsPrepared used) (hannounces : parser.announces = true)
    (call : Dialect × List UInt8) : (trace.called parser call).IsPrepared (used ++ [call.1]) := by
  by_cases hready : call.1 ∈ trace.ready.dialects
  . have hused := (h.mem_ready_iff call.1).mp hready
    rw [called_of_mem hready]
    refine ⟨?_, h.byFirstUse.concat call.1, ?_⟩
    . intro dialect
      rw [h.mem_ready_iff]
      rw [List.mem_append]
      rw [List.mem_singleton]
      refine ⟨Or.inl, fun hdialect => hdialect.elim id ?_⟩
      rintro rfl
      exact hused
    . rw [← h.records]
      simp [Trace.records]
  . have hnew : call.1 ∉ used := fun hused => hready ((h.mem_ready_iff call.1).mpr hused)
    rw [called_of_notMem hannounces hready]
    refine ⟨?_, ?_, ?_⟩
    . intro dialect
      rw [Engines.dialects_add]
      rw [List.mem_append]
      rw [List.mem_append]
      rw [h.mem_ready_iff]
    . rw [Engines.dialects_add]
      exact h.byFirstUse.concat_new hnew
    . rw [Engines.dialects_add]
      rw [List.map_append]
      rw [← h.records]
      simp [Trace.records]

theorem IsPrepared.foldl_called (h : trace.IsPrepared used) (hannounces : parser.announces = true)
    (calls : List (Dialect × List UInt8)) :
    (calls.foldl (Trace.called parser) trace).IsPrepared (used ++ calls.map Prod.fst) := by
  induction calls generalizing trace used with
  | nil => simpa using h
  | cons call calls ih =>
    rw [List.foldl_cons]
    rw [List.map_cons]
    rw [List.append_cons]
    exact ih (h.called hannounces call)

theorem IsPrepared.count_records (h : trace.IsPrepared used) (dialect : Dialect) :
    trace.records.count (Parser.announcement dialect) = if dialect ∈ used then 1 else 0 := by
  rw [h.records]
  rw [List.count_map_of_injective _ _ Parser.announcement_injective]
  rw [h.byFirstUse.nodup.count]
  simp only [h.mem_ready_iff]

end Trace

namespace Parser

open Scan

theorem outcome_callAll (parser : Parser) (calls : List (Dialect × List UInt8)) (start : Trace) :
    (parser.callAll calls).outcome start =
      (.ok (calls.map fun call => parser.parse call.1 call.2), calls.foldl (Trace.called parser) start) := by
  induction calls generalizing start with
  | nil => rfl
  | cons call calls ih =>
    obtain ⟨dialect, bytes⟩ := call
    rw [callAll]
    rw [outcome_bind_of_ok (SourceFile.outcome_call dialect bytes start)]
    rw [outcome_bind_of_ok (ih _)]
    rfl

/--
What a parser that keeps its engines has after each of its calls, whatever its engines make of sources. The engines are
those of the dialects that were used so far, once each and by first use, and each of them is kept for the dialect that it
was built for. The log holds one announcement for each of
them and nothing else: a call announces the engine of its dialect before it reads the source if the dialect was not used
before, and announces nothing otherwise. The call answers what it would answer as the first one.
-/
theorem call_reuses_engines (read : Engine → List UInt8 → Except ParserFault (Option Tree))
    (earlier : List (Dialect × List UInt8)) (dialect : Dialect) (bytes : List UInt8) :
    let parser : Parser := { read, announces := true }
    let calls := earlier ++ [(dialect, bytes)]
    let used := calls.map Prod.fst
    let before := ((parser.callAll earlier).outcome {}).2
    let after := ((parser.callAll calls).outcome {}).2
    (∀ entry ∈ after.ready.table, entry.2 = .ofDialect entry.1) ∧
    (∀ dialect, dialect ∈ after.ready.dialects ↔ dialect ∈ used) ∧
    after.ready.dialects.Nodup ∧
    (after.ready.dialects.Pairwise fun first second => used.idxOf first < used.idxOf second) ∧
    after.records = after.ready.dialects.map announcement ∧
    (∀ dialect, after.records.count (announcement dialect) = if dialect ∈ used then 1 else 0) ∧
    after.events = before.events ++
      (if dialect ∈ earlier.map Prod.fst then [] else [.logged (announcement dialect)]) ++
      [.parsed dialect bytes] ∧
    (parser.call dialect bytes).outcome before = (.ok (parser.parse dialect bytes), after) ∧
    ((parser.call dialect bytes).outcome {}).1 = .ok (parser.parse dialect bytes) ∧
    ((parser.callAll calls).outcome {}).1 = .ok (calls.map fun call => parser.parse call.1 call.2) := by
  intro parser calls used before after
  have hbefore : before = earlier.foldl (Trace.called parser) {} := by
    simp only [before, outcome_callAll]
  have hafter : after = before.called parser (dialect, bytes) := by
    simp only [after, calls, outcome_callAll, hbefore, List.foldl_append, List.foldl_cons,
      List.foldl_nil]
  have hearlier : before.IsPrepared (earlier.map Prod.fst) := by
    rw [hbefore]
    exact Trace.isPrepared_empty.foldl_called rfl earlier
  have hprepared : after.IsPrepared used := by
    rw [hafter]
    simp only [used, calls, List.map_append]
    exact hearlier.called rfl (dialect, bytes)
  refine ⟨after.ready.eq_ofDialect, hprepared.mem_ready_iff, hprepared.byFirstUse.nodup, hprepared.byFirstUse.ordered,
    hprepared.records, hprepared.count_records, ?_, ?_, ?_, ?_⟩
  . rw [hafter]
    by_cases hused : dialect ∈ earlier.map Prod.fst
    . rw [Trace.called_of_mem ((hearlier.mem_ready_iff dialect).mpr hused)]
      simp [hused]
    . have hready : dialect ∉ before.ready.dialects := fun h => hused ((hearlier.mem_ready_iff dialect).mp h)
      rw [Trace.called_of_notMem rfl hready]
      rw [if_neg hused]
      simp
  . rw [hafter]
    apply SourceFile.outcome_call
  . rw [SourceFile.outcome_call]
  . rw [outcome_callAll]

end Parser

end ParadigmScan
