import ParadigmScan.Proofs.Scan.Fates

/-!
This module contains when a scan ends since its parser does: the user stops the parser, or the parser leaves the program.
Nothing on the way out of the scan holds that back, and nothing else looks like it.
-/

namespace ParadigmScan

namespace ParserFault

def isFinal : ParserFault → Bool
  | interrupted _ | exit .. | problem (.foreign ..) => true
  | _ => false

def IsInterruption (fault : ParserFault) : Prop := ∃ message, fault = interrupted message

def Returns (code : Int) (fault : ParserFault) : Prop :=
  (∃ words, fault = exit code words) ∨ ∃ name text, fault = problem (.foreign name text code)

theorem isFinal_of_isInterruption (fault : ParserFault) (h : fault.IsInterruption) :
    fault.isFinal = true := by
  obtain ⟨message, rfl⟩ := h
  rfl

theorem isFinal_of_returns {code : Int} (fault : ParserFault) (h : fault.Returns code) :
    fault.isFinal = true := by
  rcases h with ⟨words, rfl⟩ | ⟨name, text, rfl⟩
  . rfl
  . rfl

end ParserFault

namespace Failure

def ofParser : ParserFault → Failure
  | .problem reported => .problem reported
  | other => .fault (.parser other)

/--
The result is a fault of the parser that ends the scan in its own way and satisfies `p`.
-/
def Ends {α : Type} (p : ParserFault → Prop) (result : Except Failure α) : Prop :=
  ∃ fault, fault.isFinal = true ∧ p fault ∧ result = .error (ofParser fault)

variable {α β : Type} {p : ParserFault → Prop}

theorem ofParser_injective : Function.Injective ofParser := by
  intro fault fault' h
  cases fault <;> cases fault' <;> simp_all [ofParser]

theorem not_ends_ok (result : α) : ¬ Ends p (.ok result) := by
  rintro ⟨fault, -, -, h⟩
  cases h

theorem ends_error_iff {failure : Failure} :
    Ends p (.error failure : Except Failure α) ↔ Ends p (.error failure : Except Failure β) := by
  simp [Ends]

def isFinal : Failure → Bool
  | .problem (.foreign ..) | .fault (.parser (.interrupted _)) | .fault (.parser (.exit ..)) => true
  | _ => false

theorem isFinal_ofParser (fault : ParserFault) : (ofParser fault).isFinal = fault.isFinal := by
  cases fault with
  | problem reported => cases reported <;> rfl
  | _ => rfl

theorem not_ends_error {failure : Failure} (h : failure.isFinal = false) :
    ¬ Ends p (.error failure : Except Failure α) := by
  rintro ⟨fault, hfinal, -, heq⟩
  cases heq
  rw [isFinal_ofParser] at h
  rw [h] at hfinal
  cases hfinal

end Failure

namespace ParserSession

def FailsIn (session : ParserSession) (p : ParserFault → Prop) (calls : List (Dialect × List UInt8)) :
    List (Dialect × List UInt8) → Prop
  | [] => False
  | (dialect, bytes) :: rest =>
    (∃ fault, (session calls).parse dialect bytes = .error fault ∧ p fault) ∨
      session.FailsIn p (calls ++ [(dialect, bytes)]) rest

variable {session : ParserSession} {p : ParserFault → Prop}
  {calls new new' : List (Dialect × List UInt8)}

theorem failsIn_append :
    session.FailsIn p calls (new ++ new') ↔
      session.FailsIn p calls new ∨ session.FailsIn p (calls ++ new) new' := by
  induction new generalizing calls with
  | nil => simp [FailsIn]
  | cons call new ih =>
    obtain ⟨dialect, bytes⟩ := call
    rw [List.cons_append]
    rw [FailsIn]
    rw [FailsIn]
    rw [ih]
    simp [or_assoc]

end ParserSession

namespace Scan

variable {α β : Type} {session : ParserSession} {p : ParserFault → Prop}

/--
The operation ends with a fault of the parser that satisfies `p` if and only if the parser ends one of the calls with
such a fault.
-/
def Tracks (session : ParserSession) (p : ParserFault → Prop) (scan : Scan α) : Prop :=
  ∀ start, ∃ new, (scan.outcome start).2.calls = start.calls ++ new ∧
    (Failure.Ends p (scan.outcome start).1 ↔
      session.FailsIn (fun fault => fault.isFinal = true ∧ p fault) start.calls new)

theorem tracks_pure (result : α) : Tracks session p (pure result) :=
  fun start => ⟨[], (List.append_nil start.calls).symm, iff_of_false (Failure.not_ends_ok result) id⟩

theorem tracks_throw {failure : Failure} (h : ¬ Failure.Ends p (.error failure : Except Failure α)) :
    Tracks session p (throw failure : Scan α) :=
  fun start => ⟨[], (List.append_nil start.calls).symm, iff_of_false h id⟩

theorem tracks_emit {event : Event} (h : event.call? = none) : Tracks session p (emit event) := by
  intro start
  refine ⟨[], ?_, iff_of_false (Failure.not_ends_ok ()) id⟩
  rw [outcome_emit]
  rw [Trace.calls_eq]
  rw [Trace.calls_eq]
  simp [h]

theorem tracks_bind {scan : Scan α} {next : α → Scan β} (hscan : Tracks session p scan)
    (hnext : ∀ result, Tracks session p (next result)) : Tracks session p (scan >>= next) := by
  intro start
  obtain ⟨new, hcalls, hfails⟩ := hscan start
  cases h : scan.outcome start with
  | mk result trace =>
    rw [h] at hcalls hfails
    cases result with
    | error failure =>
      rw [outcome_bind_of_error h]
      exact ⟨new, hcalls, Failure.ends_error_iff.trans hfails⟩
    | ok result =>
      rw [outcome_bind_of_ok h]
      obtain ⟨new', hcalls', hfails'⟩ := hnext result trace
      refine ⟨new ++ new', ?_, ?_⟩
      . rw [hcalls']
        rw [hcalls]
        rw [List.append_assoc]
      . have hnot := (not_congr hfails).mp (Failure.not_ends_ok result)
        rw [hfails']
        rw [hcalls]
        rw [ParserSession.failsIn_append]
        simp [hnot]

theorem tracks_map {scan : Scan α} (hscan : Tracks session p scan) (f : α → β) :
    Tracks session p (f <$> scan) := by
  rw [← bind_pure_comp]
  exact tracks_bind hscan fun result => tracks_pure (f result)

theorem tracks_tryCatch {scan : Scan α} {handle : Failure → Scan α} (hscan : Tracks session p scan)
    (hhandle : ∀ failure, ¬ Failure.Ends p (.error failure : Except Failure α) →
      Tracks session p (handle failure))
    (hpass : ∀ fault : ParserFault, fault.isFinal = true →
      handle (.ofParser fault) = throw (.ofParser fault)) :
    Tracks session p (tryCatch scan handle) := by
  intro start
  obtain ⟨new, hcalls, hfails⟩ := hscan start
  rw [outcome_tryCatch]
  cases h : scan.outcome start with
  | mk result trace =>
    rw [h] at hcalls hfails
    cases result with
    | ok result => exact ⟨new, hcalls, hfails⟩
    | error failure =>
      by_cases hends : Failure.Ends p (.error failure : Except Failure α)
      . obtain ⟨fault, hfinal, -, heq⟩ := hends
        cases heq
        simp only [hpass fault hfinal]
        exact ⟨new, hcalls, hfails⟩
      . obtain ⟨new', hcalls', hfails'⟩ := hhandle failure hends trace
        have hnot := (not_congr hfails).mp hends
        refine ⟨new ++ new', ?_, ?_⟩
        . simp only [hcalls', hcalls, List.append_assoc]
        . simp only [hfails', hcalls, ParserSession.failsIn_append, hnot, false_or]

theorem tracks_liftM {result : Except Failure α} (h : ¬ Failure.Ends p result) :
    Tracks session p (liftM result : Scan α) := by
  intro start
  rw [outcome_liftM]
  exact ⟨[], (List.append_nil start.calls).symm, iff_of_false h id⟩

end Scan

namespace SourceFile

open Scan

variable {host : Host} {session : ParserSession} {p : ParserFault → Prop} {encodingName : String}
  {path : Path}

theorem reply_of_isFinal {fault : ParserFault} (h : fault.isFinal = true) :
    reply path (.error fault) = .error (.ofParser fault) := by
  cases fault with
  | badInput => cases h
  | _ => rfl

theorem isFinal_of_reply {fault : ParserFault} {failure : Failure} (h : fault.isFinal = false)
    (hreply : reply path (.error fault) = .error failure) : failure.isFinal = false := by
  cases fault with
  | badInput | broken | system =>
    cases hreply
    rfl
  | problem problem =>
    cases hreply
    cases problem with
    | foreign => cases h
    | _ => rfl
  | interrupted | exit => cases h

theorem ends_reply_iff {answer : Except ParserFault (Option Tree)} :
    Failure.Ends p (reply path answer) ↔
      ∃ fault, answer = .error fault ∧ fault.isFinal = true ∧ p fault := by
  cases answer with
  | ok tree => exact iff_of_false (Failure.not_ends_ok tree) (by simp)
  | error fault =>
    simp only [Except.error.injEq, exists_eq_left']
    cases hfinal : fault.isFinal with
    | true =>
      rw [reply_of_isFinal hfinal]
      constructor
      . rintro ⟨other, -, hp, heq⟩
        obtain rfl := Failure.ofParser_injective (Except.error.inj heq)
        exact ⟨rfl, hp⟩
      . rintro ⟨-, hp⟩
        exact ⟨fault, hfinal, hp, rfl⟩
    | false =>
      apply iff_of_false _ (by simp)
      cases hreply : reply path (.error fault) with
      | ok tree => exact Failure.not_ends_ok tree
      | error failure => exact Failure.not_ends_error (isFinal_of_reply hfinal hreply)

theorem tracks_parse (text : List CodePoint) : Tracks session p (parse session path text) := by
  cases htext : Encoding.surrogateRun? text with
  | some run =>
    unfold parse
    simp only [htext]
    exact tracks_throw (Failure.not_ends_error rfl)
  | none =>
    intro start
    obtain ⟨trace, hadds, hparse⟩ := @outcome_parse session path text htext start
    refine ⟨[(path.dialect, Encoding.encodeUtf8 text)], ?_, ?_⟩
    . rw [hparse]
      exact hadds.calls
    . rw [hparse]
      simp only [ParserSession.FailsIn, or_false]
      exact ends_reply_iff

theorem not_ends_readText : ¬ Failure.Ends p (readText host encodingName path) := by
  cases hname : Path.hasNul encodingName with
  | true =>
    unfold readText
    rw [hname]
    exact Failure.not_ends_error rfl
  | false =>
    cases hpath : Path.hasNul path.text with
    | true =>
      unfold readText
      rw [hname]
      rw [hpath]
      exact Failure.not_ends_error rfl
    | false =>
      cases hencoding : Encoding.ofName? encodingName with
      | none =>
        unfold readText
        rw [hname]
        rw [hpath]
        rw [hencoding]
        cases host.readBytes path with
        | error error => exact Failure.not_ends_error rfl
        | ok bytes => exact Failure.not_ends_error rfl
      | some encoding =>
        rw [readText_eq hname hencoding hpath]
        cases host.readBytes path with
        | error error => exact Failure.not_ends_error rfl
        | ok bytes =>
          simp only
          cases encoding.decode host.platform.decode bytes with
          | ok text => exact Failure.not_ends_ok _
          | error error => exact Failure.not_ends_error rfl

theorem tracks_load : Tracks session p (load host session encodingName path) :=
  tracks_bind (tracks_liftM not_ends_readText) fun text => tracks_parse text

theorem tracks_tally : Tracks session p (tally host session encodingName path) := by
  unfold tally
  apply tracks_tryCatch (tracks_map tracks_load tallyOf)
  . intro failure hfailure
    cases failure with
    | problem problem =>
      simp only
      split
      . exact tracks_bind (tracks_emit rfl) fun _ => tracks_pure _
      . exact tracks_throw hfailure
    | fault fault => exact tracks_throw hfailure
  . intro fault hfinal
    cases fault with
    | problem problem =>
      cases problem with
      | foreign => rfl
      | _ => cases hfinal
    | _ => rfl

end SourceFile

namespace Scan

variable {host : Host} {session : ParserSession} {p : ParserFault → Prop}

theorem tracks_logAll (records : List Log.Record) : Tracks session p (logAll records) := by
  induction records with
  | nil => exact tracks_pure ()
  | cons record records ih => exact tracks_bind (tracks_emit rfl) fun _ => ih

theorem tracks_tallies (encodingName : String) (paths : List Path) :
    Tracks session p (tallies host session encodingName paths) := by
  induction paths with
  | nil => exact tracks_pure []
  | cons path paths ih =>
    apply tracks_bind SourceFile.tracks_tally
    intro tally
    exact tracks_bind ih fun others => tracks_pure _

theorem tracks_directory (settings : Settings) (root : String) (patterns : List String) :
    Tracks session p (directory host session settings root patterns) := by
  unfold directory
  simp only
  split
  . exact tracks_throw (Failure.not_ends_error rfl)
  . exact tracks_throw (Failure.not_ends_error rfl)
  . apply tracks_bind (tracks_logAll _)
    intro _
    apply tracks_bind (tracks_emit rfl)
    intro _
    apply tracks_bind (tracks_emit rfl)
    intro _
    exact tracks_bind (tracks_tallies _ _) fun tallies => tracks_pure _

theorem ends_directory_iff (p : ParserFault → Prop) (settings : Settings) (root : String)
    (patterns : List String) :
    Failure.Ends p ((directory host session settings root patterns).outcome).1 ↔
      session.FailsIn (fun fault => fault.isFinal = true ∧ p fault) []
        ((directory host session settings root patterns).outcome).2.calls := by
  obtain ⟨new, hcalls, hfails⟩ := @tracks_directory host session p settings root patterns {}
  rw [hfails]
  rw [hcalls]
  rfl

end Scan

end ParadigmScan
