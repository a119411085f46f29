import ParadigmScan.Proofs.Scan.Fates

/-!
This module contains that a parser is given a normal form of every file: faultless UTF-8 with single line feeds. Files
that have the normal form are given to the parser as they are, and files that differ in their line ends only have the
same one.
-/

namespace ParadigmScan

namespace Encoding

variable {bytes : List UInt8}

theorem isUtf8_repair (bytes : List UInt8) : IsUtf8 (unifyLines (decodeUtf8 bytes)) (repair bytes) :=
  ⟨isScalar_of_mem_unifyLines (isScalar_of_mem_decodeUtf8 bytes), rfl⟩

theorem notMem_repair (bytes : List UInt8) : 13 ∉ repair bytes := by
  intro h
  have hmem := mem_of_mem_encodeUtf8 (by decide) (isUtf8_repair bytes).scalar h
  exact notMem_unifyLines _ hmem

theorem repair_of_isUtf8 {text : List CodePoint} (h : IsUtf8 text bytes) (hreturn : 13 ∉ bytes) :
    repair bytes = bytes := by
  have htext : 13 ∉ text := by
    rw [← h.decodeUtf8_eq]
    exact fun hmem => hreturn (mem_of_mem_decodeUtf8 (by decide) hmem)
  unfold repair
  rw [h.decodeUtf8_eq]
  rw [unifyLines_of_notMem htext]
  exact h.form

def lineEnds : List (List UInt8) := [[13, 10], [13]]

theorem unifyLines_decodeUtf8_substitute (hreturn : 13 ∉ bytes) {ending : List UInt8}
    (hending : ending ∈ lineEnds) :
    unifyLines (decodeUtf8 (substitute 10 ending bytes)) = unifyLines (decodeUtf8 bytes) := by
  have htext : 13 ∉ decodeUtf8 bytes :=
    fun hmem => hreturn (mem_of_mem_decodeUtf8 (by decide) hmem)
  unfold lineEnds at hending
  rw [unifyLines_of_notMem htext]
  simp only [List.mem_cons, List.not_mem_nil, or_false] at hending
  rcases hending with rfl | rfl
  . rw [decodeUtf8_substitute (by decide) (by simp)]
    exact unifyLines_substitute_returnFeed htext
  . rw [decodeUtf8_substitute (by decide) (by simp)]
    exact unifyLines_substitute_return htext

end Encoding

namespace SourceFile

open Scan Encoding

variable {host host' : Host} {session : ParserSession} {encodingName : String} {path : Path}
  {bytes bytes' : List UInt8}

/--
The path leads to a file with these bytes, and they are read as UTF-8.
-/
structure HoldsUtf8 (host : Host) (encodingName : String) (path : Path) (bytes : List UInt8) : Prop where
  hasNul_name : Path.hasNul encodingName = false
  ofName? : Encoding.ofName? encodingName = some .utf8
  hasNul_path : Path.hasNul path.text = false
  readBytes : host.readBytes path = .ok bytes

theorem HoldsUtf8.readText_eq (h : HoldsUtf8 host encodingName path bytes) :
    readText host encodingName path = .ok (unifyLines (decodeUtf8 bytes)) := by
  rw [SourceFile.readText_eq h.hasNul_name h.ofName? h.hasNul_path]
  rw [h.readBytes]
  rfl

theorem HoldsUtf8.outcome_load (h : HoldsUtf8 host encodingName path bytes) (start : Trace) :
    ∃ trace, trace.calls = start.calls ++ [(path.dialect, repair bytes)] ∧
      (load host session encodingName path).outcome start =
        (reply path ((session start.calls).parse path.dialect (repair bytes)), trace) := by
  obtain ⟨trace, hadds, hparse⟩ := @outcome_parse session path _
    (surrogateRun?_unifyLines_decodeUtf8 bytes) start
  refine ⟨trace, hadds.calls, ?_⟩
  rw [SourceFile.outcome_load]
  rw [h.readText_eq]
  exact hparse

theorem HoldsUtf8.tally_eq (h : HoldsUtf8 host encodingName path bytes)
    (h' : HoldsUtf8 host' encodingName path bytes')
    (htext : unifyLines (decodeUtf8 bytes') = unifyLines (decodeUtf8 bytes)) (session : ParserSession) :
    tally host' session encodingName path = tally host session encodingName path := by
  unfold tally load
  rw [h.readText_eq]
  rw [h'.readText_eq]
  rw [htext]

/--
A parser is given a normal form of the bytes of a file, and no file is refused before. The normal form is faultless
UTF-8 without returns, it is its own normal form, and bytes like that are in normal form. It does not depend on how the
lines of the file end, and neither does the tally.
-/
theorem parser_gets_normal_form (bytes : List UInt8) :
    (∀ host encodingName path, HoldsUtf8 host encodingName path bytes →
      ∀ (session : ParserSession) (start : Trace),
        ∃ trace, trace.calls = start.calls ++ [(path.dialect, repair bytes)] ∧
          (load host session encodingName path).outcome start =
            (reply path ((session start.calls).parse path.dialect (repair bytes)), trace)) ∧
    (∃ text, IsUtf8 text (repair bytes)) ∧
    13 ∉ repair bytes ∧
    repair (repair bytes) = repair bytes ∧
    ((∃ text, IsUtf8 text bytes) → 13 ∉ bytes → repair bytes = bytes) ∧
    (13 ∉ bytes → ∀ ending ∈ lineEnds, repair (substitute 10 ending bytes) = repair bytes ∧
      ∀ host host' encodingName path, HoldsUtf8 host encodingName path bytes →
        HoldsUtf8 host' encodingName path (substitute 10 ending bytes) →
        ∀ (session : ParserSession) (start : Trace),
          (tally host' session encodingName path).outcome start =
            (tally host session encodingName path).outcome start) := by
  have hutf8 := isUtf8_repair bytes
  have hreturn := notMem_repair bytes
  refine ⟨?_, ⟨_, hutf8⟩, hreturn, repair_of_isUtf8 hutf8 hreturn, ?_, ?_⟩
  . exact fun host encodingName path h session start => h.outcome_load start
  . rintro ⟨text, htext⟩ hreturn
    exact repair_of_isUtf8 htext hreturn
  . intro hreturn ending hending
    have htext := unifyLines_decodeUtf8_substitute hreturn hending
    refine ⟨congrArg encodeUtf8 htext, ?_⟩
    intro host host' encodingName path h h' session start
    rw [h.tally_eq h' htext]

theorem parser_gets_normal_form_sourceHost :
    13 ∉ [0xE2, 0x82, 10, 0x61, 10] ∧ [13] ∈ lineEnds ∧
      repair [0xE2, 0x82, 13, 0x61, 13] = repair [0xE2, 0x82, 10, 0x61, 10] ∧
      (tally (sourceHost [0xE2, 0x82, 13, 0x61, 13]) Parser.grammar "utf-8"
          { anchor := .root, names := ["a.ts"] }).outcome =
        (tally (sourceHost [0xE2, 0x82, 10, 0x61, 10]) Parser.grammar "utf-8"
          { anchor := .root, names := ["a.ts"] }).outcome := by
  have hholds : ∀ bytes, HoldsUtf8 (sourceHost bytes) "utf-8" { anchor := .root, names := ["a.ts"] } bytes :=
    fun bytes => ⟨by cbv, by cbv, by cbv, readBytes_sourceHost bytes⟩
  obtain ⟨-, -, -, -, -, hends⟩ := parser_gets_normal_form [0xE2, 0x82, 10, 0x61, 10]
  obtain ⟨hrepair, htally⟩ := hends (by decide) [13] (by decide)
  exact ⟨by decide, by decide, hrepair,
    htally _ _ _ _ (hholds [0xE2, 0x82, 10, 0x61, 10]) (hholds [0xE2, 0x82, 13, 0x61, 13]) Parser.grammar {}⟩

end SourceFile

end ParadigmScan
