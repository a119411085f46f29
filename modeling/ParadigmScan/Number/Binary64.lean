/-!
This module contains double precision numbers as exact values: a finite one is a sign and a number
`significand * 2 ^ exponent`. Quotients of integers are rounded to the nearest double, ties to the
even significand.
-/

namespace ParadigmScan

/--
A double precision number. A finite one has a significand below `2 ^ 53` and an exponent between -1074
and 971; its significand has all of its 53 bits unless the exponent is -1074.
-/
inductive Binary64 where
  | finite (negative : Bool) (significand : Nat) (exponent : Int)
  | infinite (negative : Bool)
  | nan
  deriving DecidableEq, Repr, Inhabited

namespace Binary64

def divNearestEven (num den : Nat) : Nat :=
  let quotient := num / den
  let rest := num % den
  if den < 2 * rest || (den == 2 * rest && quotient % 2 == 1) then quotient + 1 else quotient

def divNearestUp (num den : Nat) : Nat :=
  (2 * num + den) / (2 * den)

def scaleDown (num den : Nat) (e : Int) : Nat × Nat :=
  if 0 ≤ e then (num, den * Nat.pow 2 e.toNat) else (num * Nat.pow 2 (-e).toNat, den)

/--
The exponent of the leading bit of `num / den`: the largest `k` with `2 ^ k ≤ num / den`.
-/
def leadingBit (num den : Nat) : Int :=
  let guess : Int := (num.log2 : Int) - (den.log2 : Int)
  let (n, d) := scaleDown num den guess
  if n < d then guess - 1 else guess

/--
The exponent of the last bit that a double has room for at the magnitude of `num / den`.
-/
def lastBit (num den : Nat) : Int :=
  max (leadingBit num den - 52) (-1074)

def ofQuotient (negative : Bool) (num den : Nat) : Binary64 :=
  let e := lastBit num den
  let (n, d) := scaleDown num den e
  let m := divNearestEven n d
  -- rounding up may carry into one bit more
  let (m, e) := if m == Nat.pow 2 53 then (Nat.pow 2 52, e + 1) else (m, e)
  if num == 0 then .finite negative 0 (-1074)
  else if 971 < e then .infinite negative
  else .finite negative m e

/--
The double nearest to `±digits * 10 ^ exponent`. Exponents far outside of the range of doubles are
settled without computing the power.
-/
def ofDecimal (negative : Bool) (digits : Nat) (exponent : Int) : Binary64 :=
  let size : Int := digits.log2 + 1
  if digits == 0 then .finite negative 0 (-1074)
  else if 400 < exponent then .infinite negative
  else if exponent < -400 - size then .finite negative 0 (-1074)
  else if 0 ≤ exponent then ofQuotient negative (digits * Nat.pow 10 exponent.toNat) 1
  else ofQuotient negative digits (Nat.pow 10 (-exponent).toNat)

def fraction (significand : Nat) (exponent : Int) : Nat × Nat :=
  scaleDown significand 1 (-exponent)

end Binary64

end ParadigmScan
