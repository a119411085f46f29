import ParadigmScan.Encoding.Utf8

/-!
This module contains the encodings with one byte per character.
-/

namespace ParadigmScan

namespace Encoding

def asciiChar (b : UInt8) : CodePoint :=
  if b.toNat < 0x80 then b.toNat else .replacement

/--
The characters of the bytes from 0x80 to 0x9F in the Windows character set for Western Europe. Zero stands
for a byte that is not assigned.
-/
def windows1252Row : List CodePoint :=
  [0x20AC, 0, 0x201A, 0x0192, 0x201E, 0x2026, 0x2020, 0x2021,
    0x02C6, 0x2030, 0x0160, 0x2039, 0x0152, 0, 0x017D, 0,
    0, 0x2018, 0x2019, 0x201C, 0x201D, 0x2022, 0x2013, 0x2014,
    0x02DC, 0x2122, 0x0161, 0x203A, 0x0153, 0, 0x017E, 0x0178]

def windows1252Char (b : UInt8) : CodePoint :=
  let n := b.toNat
  if 0x80 ≤ n && n < 0xA0 then
    match windows1252Row.getD (n - 0x80) 0 with
    | 0 => .replacement
    | c => c
  else
    n

def latin9Char (b : UInt8) : CodePoint :=
  match b.toNat with
  | 0xA4 => 0x20AC
  | 0xA6 => 0x0160
  | 0xA8 => 0x0161
  | 0xB4 => 0x017D
  | 0xB8 => 0x017E
  | 0xBC => 0x0152
  | 0xBD => 0x0153
  | 0xBE => 0x0178
  | n => n

end Encoding

end ParadigmScan
