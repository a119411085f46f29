import ParadigmScan.Encoding.Utf8

/-!
This module contains the encoding that writes characters outside of ASCII as digits to the base 64
between a plus and a minus sign.
-/

namespace ParadigmScan

namespace Encoding

def base64Value (b : UInt8) : Option Nat :=
  let n := b.toNat
  if 65 ≤ n && n ≤ 90 then some (n - 65)
  else if 97 ≤ n && n ≤ 122 then some (n - 71)
  else if 48 ≤ n && n ≤ 57 then some (n + 4)
  else if n == 43 then some 62
  else if n == 47 then some 63
  else none

/--
Digits that are not yet used up: how many bits they have and which. A first half of a pair of units waits for
the second one.
-/
structure Shift where
  count : Nat := 0
  bits : Nat := 0
  half : Option Nat := none
  deriving DecidableEq, Repr, Inhabited

namespace Shift

def unit (shift : Shift) (value : Nat) : List CodePoint × Shift :=
  let isHigh := 0xD800 ≤ value && value < 0xDC00
  let fresh := if isHigh then ([], { shift with half := some value })
    else ([value], { shift with half := none })
  match shift.half with
  | none => fresh
  | some high =>
    if 0xDC00 ≤ value && value < 0xE000 then
      ([0x10000 + (high - 0xD800) * 1024 + (value - 0xDC00)], { shift with half := none })
    else
      (high :: fresh.1, fresh.2)

/--
Adds a digit. Sixteen bits make a unit.
-/
def digit (shift : Shift) (value : Nat) : List CodePoint × Shift :=
  let count := shift.count + 6
  let bits := shift.bits * 64 + value
  if 16 ≤ count then
    let left := count - 16
    { shift with count := left, bits := bits % Nat.pow 2 left }.unit (bits / Nat.pow 2 left)
  else
    ([], { shift with count, bits })

def isBroken (shift : Shift) : Bool :=
  6 ≤ shift.count || (0 < shift.count && shift.bits != 0)

end Shift

/--
Decodes bytes. What cannot be decoded is replaced, together with the byte that shows it.
-/
def decodeUtf7 : Option Shift → List UInt8 → List CodePoint
  | none, [] => []
  | some shift, [] => if shift.isBroken || shift.half.isSome then [.replacement] else []
  | some shift, b :: rest =>
    match base64Value b with
    | some value =>
      let (text, shift) := shift.digit value
      text ++ decodeUtf7 (some shift) rest
    | none =>
      if shift.isBroken then
        .replacement :: decodeUtf7 none rest
      else
        (if b.toNat < 0x80 then shift.half.toList else []) ++
          if b == 45 then decodeUtf7 none rest
          else if b.toNat < 0x80 then b.toNat :: decodeUtf7 none rest
          else .replacement :: decodeUtf7 none rest
  | none, b :: rest =>
    if b == 43 then
      match rest with
      | [] => []
      | next :: rest =>
        if next == 45 then 43 :: decodeUtf7 none rest
        else
          match base64Value next with
          | some value =>
            let (text, shift) := Shift.digit {} value
            text ++ decodeUtf7 (some shift) rest
          | none => .replacement :: decodeUtf7 none rest
    else if b.toNat < 0x80 then b.toNat :: decodeUtf7 none rest
    else .replacement :: decodeUtf7 none rest

end Encoding

end ParadigmScan
