import ParadigmScan.Encoding.Utf8

/-!
This module contains the encodings by units of two and of four bytes.
-/

namespace ParadigmScan

namespace Encoding

inductive ByteOrder where
  | little
  | big
  deriving DecidableEq, Repr, Inhabited

def unitOf (order : ByteOrder) (bytes : List UInt8) : Nat :=
  let bigFirst := match order with
    | .little => bytes.reverse
    | .big => bytes
  bigFirst.foldl (fun value b => value * 256 + b.toNat) 0

def unitsOf (order : ByteOrder) (width : Nat) (bytes : List UInt8) : List Nat × Bool :=
  let count := bytes.length / width
  let units := (List.range count).map fun i =>
    unitOf order ((bytes.drop (i * width)).take width)
  (units, count * width < bytes.length)

/--
Decodes units of two bytes. A unit that is half of a pair without the other half is replaced; at the end
of the input it is replaced together with the bytes that are left over.
-/
def decodeUnits16 (leftOver : Bool) : List Nat → List CodePoint
  | [] => if leftOver then [.replacement] else []
  | [unit] =>
    if 0xD800 ≤ unit && unit < 0xDC00 then [.replacement]
    else
      (if CodePoint.isSurrogate unit then .replacement else unit) ::
        (if leftOver then [.replacement] else [])
  | unit :: next :: rest =>
    if 0xD800 ≤ unit && unit < 0xDC00 then
      if 0xDC00 ≤ next && next < 0xE000 then
        (0x10000 + (unit - 0xD800) * 1024 + (next - 0xDC00)) :: decodeUnits16 leftOver rest
      else
        .replacement :: decodeUnits16 leftOver (next :: rest)
    else if CodePoint.isSurrogate unit then
      .replacement :: decodeUnits16 leftOver (next :: rest)
    else
      unit :: decodeUnits16 leftOver (next :: rest)

def decodeUtf16 (order : ByteOrder) (bytes : List UInt8) : List CodePoint :=
  let (units, leftOver) := unitsOf order 2 bytes
  decodeUnits16 leftOver units

/--
Decodes bytes in units of four. A unit that is no character is replaced, and so are the bytes that are left
over.
-/
def decodeUtf32 (order : ByteOrder) (bytes : List UInt8) : List CodePoint :=
  let (units, leftOver) := unitsOf order 4 bytes
  (units.map fun unit =>
    if CodePoint.isSurrogate unit || 0x110000 ≤ unit then .replacement else unit) ++
    if leftOver then [.replacement] else []

/--
Decodes bytes that start with a mark of their order. Without the mark there is no decoding, unless there
are too few bytes for one unit.
-/
def decodeMarked (width : Nat) (decode : ByteOrder → List UInt8 → List CodePoint)
    (bytes : List UInt8) : Option (List CodePoint) :=
  if bytes.length < width then some (decode .little bytes)
  else if unitOf .little (bytes.take width) == 0xFEFF then some (decode .little (bytes.drop width))
  else if unitOf .big (bytes.take width) == 0xFEFF then some (decode .big (bytes.drop width))
  else none

end Encoding

end ParadigmScan
