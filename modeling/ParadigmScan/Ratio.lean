import ParadigmScan.Number.Shortest

/-!
This module contains the ratio of two totals to two decimals. The quotient is first rounded to a
double, and the exact value of that double is then rounded to hundredths, ties away from zero.
-/

namespace ParadigmScan

/--
A signed number of hundredths. Zero keeps its sign.
-/
structure Ratio where
  negative : Bool
  hundredths : Nat
  deriving DecidableEq, Repr, Inhabited

inductive RatioError where
  /-- The quotient is beyond the largest double. -/
  | tooLarge
  /-- The rounded quotient has more digits than a decimal may have. -/
  | tooManyDigits
  deriving DecidableEq, Repr, Inhabited

namespace RatioError

def message : RatioError → String
  | tooLarge => "integer division result too large for a float"
  | tooManyDigits => "[<class 'decimal.InvalidOperation'>]"

end RatioError

namespace Ratio

def precision : Nat := 28

def quotient (oop fp : Int) : Binary64 :=
  .ofQuotient (decide (oop < 0) != decide (fp < 0)) oop.natAbs fp.natAbs

def ofBinary64 : Binary64 → Except RatioError Ratio
  | .finite negative significand exponent =>
    let (num, den) := Binary64.fraction significand exponent
    let hundredths := Binary64.divNearestUp (100 * num) den
    if hundredths < Nat.pow 10 precision then .ok { negative, hundredths }
    else .error .tooManyDigits
  | _ => .error .tooLarge

def ofTotals (oop fp : Int) : Except RatioError (Option Ratio) :=
  if fp == 0 then .ok none else some <$> ofBinary64 (quotient oop fp)

def display (r : Ratio) : String :=
  let cents := toString (r.hundredths % 100)
  (if r.negative then "-" else "") ++ toString (r.hundredths / 100) ++ "." ++
    Binary64.zeros (2 - cents.length) ++ cents

def toBinary64 (r : Ratio) : Binary64 :=
  .ofQuotient r.negative r.hundredths 100

end Ratio

end ParadigmScan
