import ParadigmScan.Encoding.Utf8

/-!
This module contains the encoding that writes the ASCII characters of a text first, and behind the last
hyphen, as numbers in letters and digits, which other characters are to be inserted where.
-/

namespace ParadigmScan

namespace Encoding

namespace Punycode

def digitValue (b : UInt8) : Option Nat :=
  let n := b.toNat
  if 65 ≤ n && n ≤ 90 then some (n - 65)
  else if 97 ≤ n && n ≤ 122 then some (n - 97)
  else if 48 ≤ n && n ≤ 57 then some (n - 22)
  else none

def threshold (place bias : Nat) : Nat :=
  let t : Int := 36 * (place + 1) - bias
  if t < 1 then 1 else if 26 < t then 26 else t.toNat

/--
Reads a number. Returns it with the digits behind it; there is none if the digits end too early or are no
digits.
-/
def number (bias : Nat) : List UInt8 → Nat → Nat → Nat → Option (Nat × List UInt8)
  | [], _, _, _ => none
  | b :: rest, place, weight, value =>
    match digitValue b with
    | none => none
    | some digit =>
      let t := threshold place bias
      let value := value + digit * weight
      if digit < t then some (value, rest)
      else number bias rest (place + 1) (weight * (36 - t)) value

def reduce : Nat → Nat → Nat → Nat × Nat
  | 0, delta, divisions => (delta, divisions)
  | fuel + 1, delta, divisions =>
    if 455 < delta then reduce fuel (delta / 35) (divisions + 36) else (delta, divisions)

def adapt (delta : Nat) (isFirst : Bool) (count : Nat) : Nat :=
  let delta := if isFirst then delta / 700 else delta / 2
  let delta := delta + delta / count
  let (delta, divisions) := reduce delta delta 0
  divisions + 36 * delta / (delta + 38)

/--
Inserts the characters that the numbers name. A number that cannot be read ends the text; one that is too
large for a character becomes a question mark.
-/
def insertAll : Nat → List UInt8 → (next char bias : Nat) → Bool → List CodePoint → List CodePoint
  | 0, _, _, _, _, _, base => base
  | fuel + 1, digits, next, char, bias, isFirst, base =>
    match digits with
    | [] => base
    | digits =>
      match number bias digits 0 1 0 with
      | none => base
      | some (delta, rest) =>
        let place := next + delta
        let char := char + place / (base.length + 1)
        let char := if 0x10FFFF < char then 63 else char
        let place := place % (base.length + 1)
        let base := base.take place ++ char :: base.drop place
        insertAll fuel rest (place + 1) char (adapt delta isFirst base.length) false base

def split (bytes : List UInt8) : List UInt8 × List UInt8 :=
  let behind := (bytes.reverse.takeWhile (· != 45)).reverse
  let before := bytes.take (bytes.length - behind.length)
  (before.dropLast, behind)

end Punycode

/--
Decodes bytes. The numbers have to be ASCII; the error is the position of the first byte among them that is
not, and the byte.
-/
def decodePunycode (bytes : List UInt8) : Except (Nat × UInt8) (List CodePoint) :=
  let (base, digits) := Punycode.split bytes
  let base := base.map fun b => if b.toNat < 0x80 then b.toNat else CodePoint.replacement
  match digits.findIdx? (0x80 ≤ ·.toNat) with
  | some position => .error (position, digits.getD position 0)
  | none => .ok (Punycode.insertAll digits.length digits 0 0x80 72 true base)

end Encoding

end ParadigmScan
