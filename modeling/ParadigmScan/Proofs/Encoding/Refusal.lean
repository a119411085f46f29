import Mathlib.Data.List.TakeWhile
import ParadigmScan.Encoding.Decode

/-!
This module contains when a file cannot be decoded at all. Most encodings replace what they cannot decode,
but some refuse whole files.
-/

namespace ParadigmScan

namespace Encoding

/--
The bytes are refused by the encoding: whatever they are if it cannot decode text or cannot replace,
without the mark of their order if it needs one, and with a byte outside of ASCII behind the last hyphen (45)
if it reads numbers there.
-/
def Refuses : Encoding → List UInt8 → Prop
  | binary, _ | undefined, _ | domainName, _ => True
  | utf16, bytes => 2 ≤ bytes.length ∧ bytes.take 2 ∉ [[0xFF, 0xFE], [0xFE, 0xFF]]
  | utf32, bytes => 4 ≤ bytes.length ∧ bytes.take 4 ∉ [[0xFF, 0xFE, 0, 0], [0, 0, 0xFE, 0xFF]]
  | punycode, bytes =>
    ∃ before byte behind, bytes = before ++ byte :: behind ∧ 0x80 ≤ byte.toNat ∧ 45 ∉ behind
  | _, _ => False

theorem unitOf_two_iff (a b : UInt8) :
    (unitOf .little [a, b] = 0xFEFF ↔ [a, b] = [0xFF, 0xFE]) ∧
      (unitOf .big [a, b] = 0xFEFF ↔ [a, b] = [0xFE, 0xFF]) := by
  have ha := a.toNat_lt
  have hb := b.toNat_lt
  simp only [unitOf, List.reverse_cons, List.reverse_nil, List.nil_append, List.cons_append,
    List.foldl_cons, List.foldl_nil, List.cons.injEq, and_true, ← UInt8.toNat_inj]
  simp only [UInt8.reduceToNat]
  omega

theorem unitOf_four_iff (a b c d : UInt8) :
    (unitOf .little [a, b, c, d] = 0xFEFF ↔ [a, b, c, d] = [0xFF, 0xFE, 0, 0]) ∧
      (unitOf .big [a, b, c, d] = 0xFEFF ↔ [a, b, c, d] = [0, 0, 0xFE, 0xFF]) := by
  have ha := a.toNat_lt
  have hb := b.toNat_lt
  have hc := c.toNat_lt
  have hd := d.toNat_lt
  simp only [unitOf, List.reverse_cons, List.reverse_nil, List.nil_append, List.cons_append,
    List.foldl_cons, List.foldl_nil, List.cons.injEq, and_true, ← UInt8.toNat_inj]
  simp only [UInt8.reduceToNat]
  omega

theorem decodeMarked_eq_none_iff {width : Nat} {decode : ByteOrder → List UInt8 → List CodePoint}
    {bytes : List UInt8} :
    decodeMarked width decode bytes = none ↔
      width ≤ bytes.length ∧ unitOf .little (bytes.take width) ≠ 0xFEFF ∧
        unitOf .big (bytes.take width) ≠ 0xFEFF := by
  unfold decodeMarked
  by_cases hwidth : bytes.length < width
  . have : ¬ width ≤ bytes.length := by omega
    simp [hwidth, this]
  . have : width ≤ bytes.length := by omega
    simp only [hwidth, ↓reduceIte, this, true_and]
    split
    . simp_all
    . split <;> simp_all

theorem mem_split_iff {bytes : List UInt8} {byte : UInt8} (hbyte : byte ≠ 45) :
    byte ∈ (Punycode.split bytes).2 ↔
      ∃ before behind, bytes = before ++ byte :: behind ∧ 45 ∉ behind := by
  simp only [Punycode.split, List.mem_reverse]
  constructor
  . intro hmem
    obtain ⟨behind, before, hsplit⟩ := List.append_of_mem hmem
    have hbehind : 45 ∉ behind := by
      intro h
      have := List.mem_takeWhile_imp (hsplit ▸ List.mem_append_left _ h)
      simp at this
    have hreverse : bytes.reverse =
        behind ++ byte :: before ++ bytes.reverse.dropWhile (· != 45) := by
      rw [← hsplit]
      rw [List.takeWhile_append_dropWhile]
    refine ⟨(before ++ bytes.reverse.dropWhile (· != 45)).reverse, behind.reverse, ?_, by simpa⟩
    simpa using congrArg List.reverse hreverse
  . rintro ⟨before, behind, rfl, hbehind⟩
    have hall : ∀ b ∈ behind.reverse, (b != 45) = true := by
      intro b hb
      have : b ≠ 45 := fun heq => hbehind (by simpa [heq] using hb)
      simpa using this
    have hreverse : (before ++ byte :: behind).reverse = behind.reverse ++ byte :: before.reverse := by
      simp
    rw [hreverse]
    rw [List.takeWhile_append_of_pos hall]
    simp [hbyte]

theorem exists_decodePunycode_eq_error_iff {bytes : List UInt8} :
    (∃ error, decodePunycode bytes = .error error) ↔ punycode.Refuses bytes := by
  have hdecode : (∃ error, decodePunycode bytes = .error error) ↔
      ∃ byte ∈ (Punycode.split bytes).2, 0x80 ≤ byte.toNat := by
    unfold decodePunycode
    simp only
    cases hposition : (Punycode.split bytes).2.findIdx? (0x80 ≤ ·.toNat) with
    | none =>
      rw [List.findIdx?_eq_none_iff] at hposition
      simpa using hposition
    | some position =>
      obtain ⟨hlt, hbyte, -⟩ := List.findIdx?_eq_some_iff_getElem.mp hposition
      have : ∃ byte ∈ (Punycode.split bytes).2, 0x80 ≤ byte.toNat :=
        ⟨_, List.getElem_mem hlt, by simpa using hbyte⟩
      simpa using this
  have hne : ∀ {byte : UInt8}, 0x80 ≤ byte.toNat → byte ≠ 45 := by
    rintro byte h rfl
    simp at h
  rw [hdecode]
  constructor
  . rintro ⟨byte, hmem, hbyte⟩
    obtain ⟨before, behind, hbytes, hbehind⟩ := (mem_split_iff (hne hbyte)).mp hmem
    exact ⟨before, byte, behind, hbytes, hbyte, hbehind⟩
  . rintro ⟨before, byte, behind, hbytes, hbyte, hbehind⟩
    exact ⟨byte, (mem_split_iff (hne hbyte)).mpr ⟨before, behind, hbytes, hbehind⟩, hbyte⟩

theorem decodeMarked_two_eq_none_iff {bytes : List UInt8} :
    decodeMarked 2 decodeUtf16 bytes = none ↔ utf16.Refuses bytes := by
  rw [decodeMarked_eq_none_iff]
  match bytes with
  | [] | [a] => simp [Refuses]
  | a :: b :: rest =>
    obtain ⟨hlittle, hbig⟩ := unitOf_two_iff a b
    simp only [List.take_succ_cons, List.take_zero, ne_eq, hlittle, hbig, Refuses]
    simp

theorem decodeMarked_four_eq_none_iff {bytes : List UInt8} :
    decodeMarked 4 decodeUtf32 bytes = none ↔ utf32.Refuses bytes := by
  rw [decodeMarked_eq_none_iff]
  match bytes with
  | [] | [a] | [a, b] | [a, b, c] => simp [Refuses]
  | a :: b :: c :: d :: rest =>
    obtain ⟨hlittle, hbig⟩ := unitOf_four_iff a b c d
    simp only [List.take_succ_cons, List.take_zero, ne_eq, hlittle, hbig, Refuses]
    simp

theorem exists_decode_eq_error_iff {encoding : Encoding}
    {further : String → List UInt8 → List CodePoint} {bytes : List UInt8} :
    (∃ error, encoding.decode further bytes = .error error) ↔ encoding.Refuses bytes := by
  cases encoding with
  | utf16 =>
    rw [← decodeMarked_two_eq_none_iff]
    simp only [decode]
    cases decodeMarked 2 decodeUtf16 bytes <;> simp
  | utf32 =>
    rw [← decodeMarked_four_eq_none_iff]
    simp only [decode]
    cases decodeMarked 4 decodeUtf32 bytes <;> simp
  | punycode =>
    rw [← exists_decodePunycode_eq_error_iff]
    simp only [decode]
    cases decodePunycode bytes <;> simp
  | _ => simp [decode, Refuses]

end Encoding

end ParadigmScan
