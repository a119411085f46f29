import ParadigmScan.Encoding.Utf8

/-!
This module contains the encodings that write characters as escapes: a backslash with a letter or digits.
Bytes outside of escapes are characters of the first 256. An escape that is cut short or names no
character is replaced up to the byte that spoils it.
-/

namespace ParadigmScan

namespace Encoding

def hexValue (b : UInt8) : Option Nat :=
  let n := b.toNat
  if 48 ≤ n && n ≤ 57 then some (n - 48)
  else if 97 ≤ n && n ≤ 102 then some (n - 87)
  else if 65 ≤ n && n ≤ 70 then some (n - 55)
  else none

def octalValue (b : UInt8) : Option Nat :=
  let n := b.toNat
  if 48 ≤ n && n ≤ 55 then some (n - 48) else none

/--
Reads up to `count` digits. Returns their value, how many there are, and what follows.
-/
def takeDigits (digit : UInt8 → Option Nat) (base : Nat) :
    Nat → List UInt8 → Nat → Nat → Nat × Nat × List UInt8
  | 0, rest, value, taken => (value, taken, rest)
  | _ + 1, [], value, taken => (value, taken, [])
  | count + 1, b :: rest, value, taken =>
    match digit b with
    | some d => takeDigits digit base count rest (value * base + d) (taken + 1)
    | none => (value, taken, b :: rest)

theorem length_takeDigits_le (digit : UInt8 → Option Nat) (base count : Nat) (bytes : List UInt8)
    (value taken : Nat) :
    (takeDigits digit base count bytes value taken).2.2.length ≤ bytes.length := by
  induction count generalizing bytes value taken with
  | zero => simp [takeDigits]
  | succ count ih =>
    cases bytes with
    | nil => simp [takeDigits]
    | cons b rest =>
      simp only [takeDigits]
      split
      . have := ih rest (value * base + ‹Nat›) (taken + 1)
        simp only [List.length_cons]
        omega
      . simp

def hexEscape (count : Nat) (bytes : List UInt8) : List CodePoint × List UInt8 :=
  let (value, taken, rest) := takeDigits hexValue 16 count bytes 0 0
  if taken == count && value < 0x110000 then ([value], rest) else ([.replacement], rest)

theorem length_hexEscape_le (count : Nat) (bytes : List UInt8) :
    (hexEscape count bytes).2.length ≤ bytes.length := by
  have := length_takeDigits_le hexValue 16 count bytes 0 0
  simp only [hexEscape]
  split <;> exact this

def simpleEscape (b : UInt8) : Option (List CodePoint) :=
  match Char.ofNat b.toNat with
  | '\n' => some []
  | '\\' => some [92]
  | '\'' => some [39]
  | '"' => some [34]
  | 'b' => some [8]
  | 'f' => some [12]
  | 't' => some [9]
  | 'n' => some [10]
  | 'r' => some [13]
  | 'v' => some [11]
  | 'a' => some [7]
  | _ => none

def escapeDigits (b : UInt8) : Option Nat :=
  match Char.ofNat b.toNat with
  | 'x' => some 2
  | 'u' => some 4
  | 'U' => some 8
  | _ => none

/--
Reads an escape by the name of a character, from behind its letter. No names are known, so it is always
replaced; a name in braces is replaced with it.
-/
def nameEscape : List UInt8 → List CodePoint × List UInt8
  | 123 :: rest =>
    match rest.dropWhile (· != 125) with
    | [] => ([.replacement], [])
    | brace :: after =>
      if (rest.takeWhile (· != 125)).isEmpty then ([.replacement], brace :: after)
      else ([.replacement], after)
  | rest => ([.replacement], rest)

theorem length_nameEscape_le (bytes : List UInt8) :
    (nameEscape bytes).2.length ≤ bytes.length := by
  unfold nameEscape
  split
  . rename_i rest
    have hle := (List.dropWhile_sublist (l := rest) (· != 125)).length_le
    split
    . simp
    . rename_i h
      rw [h] at hle
      simp only [List.length_cons] at hle ⊢
      split <;> simp only [List.length_cons] <;> omega
  . simp

def escape : List UInt8 → List CodePoint × List UInt8
  | [] => ([.replacement], [])
  | b :: rest =>
    match simpleEscape b with
    | some text => (text, rest)
    | none =>
      if (octalValue b).isSome then
        let (value, _, rest) := takeDigits octalValue 8 3 (b :: rest) 0 0
        ([value], rest)
      else
        match escapeDigits b with
        | some count => hexEscape count rest
        | none => if b == 78 then nameEscape rest else ([92, b.toNat], rest)

theorem length_escape_le (bytes : List UInt8) : (escape bytes).2.length ≤ bytes.length := by
  cases bytes with
  | nil => simp [escape]
  | cons b rest =>
    have hhex := length_hexEscape_le
    have hname := length_nameEscape_le rest
    have hoctal := length_takeDigits_le octalValue 8 3 (b :: rest) 0 0
    simp only [escape]
    split
    . simp
    . split
      . exact hoctal
      . split
        . rename_i count _
          have := hhex count rest
          simp only [List.length_cons]
          omega
        . split
          . simp only [List.length_cons]
            omega
          . simp

def decodeEscaped : List UInt8 → List CodePoint
  | [] => []
  | b :: rest =>
    if b == 92 then
      let result := escape rest
      result.1 ++ decodeEscaped result.2
    else
      b.toNat :: decodeEscaped rest
termination_by bytes => bytes.length
decreasing_by
  . have := length_escape_le rest
    simp only [List.length_cons]
    omega
  . simp

/--
Reads an escape by number, from behind its backslash. Other bytes behind a backslash stand for
themselves, and so does a backslash at the end.
-/
def rawEscape : List UInt8 → List CodePoint × List UInt8
  | [] => ([92], [])
  | b :: rest =>
    if b == 117 then hexEscape 4 rest
    else if b == 85 then hexEscape 8 rest
    else ([92, b.toNat], rest)

theorem length_rawEscape_le (bytes : List UInt8) : (rawEscape bytes).2.length ≤ bytes.length := by
  cases bytes with
  | nil => simp [rawEscape]
  | cons b rest =>
    have hhex := length_hexEscape_le
    simp only [rawEscape, List.length_cons]
    split
    . have := hhex 4 rest
      omega
    . split
      . have := hhex 8 rest
        omega
      . simp

def decodeRawEscaped : List UInt8 → List CodePoint
  | [] => []
  | b :: rest =>
    if b == 92 then
      let result := rawEscape rest
      result.1 ++ decodeRawEscaped result.2
    else
      b.toNat :: decodeRawEscaped rest
termination_by bytes => bytes.length
decreasing_by
  . have := length_rawEscape_le rest
    simp only [List.length_cons]
    omega
  . simp

end Encoding

end ParadigmScan
