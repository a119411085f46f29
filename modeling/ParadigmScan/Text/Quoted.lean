import ParadigmScan.Text.Printable

/-!
This module contains the quoted form of texts in messages: the text between quotes, with escapes for
everything that cannot be shown.
-/

namespace ParadigmScan

namespace Text

def hex (width n : Nat) : List Char :=
  let digits := Nat.toDigits 16 n
  List.replicate (width - digits.length) '0' ++ digits

def quoteChar (delimiter c : Char) : List Char :=
  if c == delimiter || c == '\\' then ['\\', c]
  else if c == '\n' then ['\\', 'n']
  else if c == '\r' then ['\\', 'r']
  else if c == '\t' then ['\\', 't']
  else if isPrintable c then [c]
  else if c.toNat < 0x100 then '\\' :: 'x' :: hex 2 c.toNat
  else if c.toNat < 0x10000 then '\\' :: 'u' :: hex 4 c.toNat
  else '\\' :: 'U' :: hex 8 c.toNat

/--
The quotes put around a text: single ones, unless the text holds single and no double ones.
-/
def delimiter (s : String) : Char :=
  if s.contains '\'' && !s.contains '"' then '"' else '\''

def quoted (s : String) : String :=
  let d := delimiter s
  String.ofList (d :: s.toList.flatMap (quoteChar d) ++ [d])

end Text

end ParadigmScan
