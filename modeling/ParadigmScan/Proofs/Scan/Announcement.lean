import ParadigmScan.Proofs.Scan.Fates

/-!
This module contains what a scan tells about the number of files that it found: it tells the number once, before it
reads the first of them, and it tells none if there is no directory to scan.
-/

namespace ParadigmScan

namespace Event

def found? : Event → Option Nat
  | found files => some files
  | _ => none

theorem found?_eq_none {event : Event} (h : event.isAnnouncement = true) : event.found? = none := by
  cases event with
  | logged record => rfl
  | _ => cases h

end Event

namespace Trace

variable {start trace : Trace} {events : List Event}

theorem found_eq (trace : Trace) : trace.found = trace.events.filterMap Event.found? := by
  unfold found
  congr 1

theorem Adds.found (h : start.Adds trace events) :
    trace.found = start.found ++ events.filterMap Event.found? := by
  obtain ⟨added, hadded, rfl⟩ := h
  rw [found_eq]
  rw [found_eq]
  rw [hadded]
  rw [List.filterMap_append]
  rw [List.filterMap_filter]
  congr 1
  apply List.filterMap_congr
  intro event _
  cases hannouncement : event.isAnnouncement with
  | true => simp [Event.found?_eq_none hannouncement]
  | false => simp

end Trace

namespace Scan

variable {α β : Type}

def TellsNone (scan : Scan α) : Prop :=
  ∀ start, (scan.outcome start).2.found = start.found

theorem tellsNone_pure (result : α) : TellsNone (pure result) :=
  fun _ => rfl

theorem tellsNone_throw (failure : Failure) : TellsNone (throw failure : Scan α) :=
  fun _ => rfl

theorem tellsNone_emit {event : Event} (h : event.found? = none) : TellsNone (emit event) := by
  intro start
  rw [outcome_emit]
  rw [Trace.found_eq]
  rw [Trace.found_eq]
  simp [h]

theorem tellsNone_liftM (result : Except Failure α) : TellsNone (liftM result : Scan α) := by
  intro start
  rw [outcome_liftM]

theorem tellsNone_bind {scan : Scan α} {next : α → Scan β} (hscan : TellsNone scan)
    (hnext : ∀ result, TellsNone (next result)) : TellsNone (scan >>= next) := by
  intro start
  have hfound := hscan start
  rw [outcome_bind]
  cases h : scan.outcome start with
  | mk result trace =>
    rw [h] at hfound
    cases result with
    | error failure => exact hfound
    | ok result => exact (hnext result trace).trans hfound

theorem tellsNone_map {scan : Scan α} (hscan : TellsNone scan) (f : α → β) :
    TellsNone (f <$> scan) := by
  rw [← bind_pure_comp]
  exact tellsNone_bind hscan fun result => tellsNone_pure (f result)

theorem tellsNone_tryCatch {scan : Scan α} {handle : Failure → Scan α} (hscan : TellsNone scan)
    (hhandle : ∀ failure, TellsNone (handle failure)) : TellsNone (tryCatch scan handle) := by
  intro start
  have hfound := hscan start
  rw [outcome_tryCatch]
  cases h : scan.outcome start with
  | mk result trace =>
    rw [h] at hfound
    cases result with
    | ok result => exact hfound
    | error failure => exact (hhandle failure trace).trans hfound

end Scan

namespace SourceFile

open Scan

variable {host : Host} {session : ParserSession} {encodingName : String} {path : Path}

theorem tellsNone_parse (text : List CodePoint) : TellsNone (parse session path text) := by
  cases htext : Encoding.surrogateRun? text with
  | some run =>
    unfold parse
    simp only [htext]
    exact tellsNone_throw _
  | none =>
    intro start
    obtain ⟨trace, hadds, hparse⟩ := @outcome_parse session path text htext start
    have hfound : trace.found = start.found := by
      rw [hadds.found]
      exact List.append_nil _
    rw [hparse]
    exact hfound

theorem tellsNone_tally : TellsNone (tally host session encodingName path) := by
  unfold tally load
  apply tellsNone_tryCatch
  . apply tellsNone_map
    exact tellsNone_bind (tellsNone_liftM _) fun text => tellsNone_parse text
  . intro failure
    cases failure with
    | problem problem =>
      simp only
      split
      . exact tellsNone_bind (tellsNone_emit rfl) fun _ => tellsNone_pure _
      . exact tellsNone_throw _
    | fault fault => exact tellsNone_throw _

end SourceFile

namespace Scan

variable {host : Host} {session : ParserSession} {settings : Settings} {root : String}
  {patterns : List String}

theorem tellsNone_tallies (encodingName : String) (paths : List Path) :
    TellsNone (tallies host session encodingName paths) := by
  induction paths with
  | nil => exact tellsNone_pure []
  | cons path paths ih =>
    apply tellsNone_bind SourceFile.tellsNone_tally
    intro tally
    exact tellsNone_bind ih fun others => tellsNone_pure _

theorem filterMap_found?_preamble :
    (preamble host settings root patterns).filterMap Event.found? =
      [(sources host settings root patterns).length] := by
  have hrecords : ∀ records : List Log.Record,
      (records.map Event.logged).filterMap Event.found? = [] := by
    simp [List.filterMap_eq_nil_iff, Event.found?]
  unfold preamble sources
  simp only
  rw [List.filterMap_append]
  rw [hrecords]
  rfl

theorem found_directory (hroot : host.isDirectory (Path.absolute host.cwd root) = .ok true) :
    (directory host session settings root patterns).outcome.2.found =
      [(sources host settings root patterns).length] := by
  obtain ⟨trace, hadds, hscan⟩ := @outcome_directory host session settings root patterns hroot {}
  rw [hscan]
  rw [tellsNone_map (tellsNone_tallies _ _)]
  rw [hadds.found]
  exact filterMap_found?_preamble

theorem found_directory_of_not_isDirectory
    (hroot : host.isDirectory (Path.absolute host.cwd root) ≠ .ok true) :
    (directory host session settings root patterns).outcome.2.found = [] := by
  unfold directory
  simp only
  split
  . rfl
  . rfl
  . next h => exact absurd h hroot

end Scan

end ParadigmScan
