import ParadigmScan.Number.Binary64

/-!
This module contains the shortest decimal text of a double: the fewest digits that read back as the
same double, and among those the ones nearest to its value.
-/

namespace ParadigmScan

namespace Binary64

/--
A positive decimal number `0.d₁d₂… * 10 ^ point`, the digits given as one number.
-/
structure Decimal where
  digits : Nat
  count : Nat
  point : Int
  deriving DecidableEq, Repr, Inhabited

/--
The position of the decimal point of `num / den`: the least `k` with `num / den < 10 ^ k`, found by
going up from a start that is not above it.
-/
def decimalPoint (num den : Nat) (start : Int) : Nat → Int
  | 0 => start
  | fuel + 1 =>
    let below :=
      if 0 ≤ start then num < den * Nat.pow 10 start.toNat else num * Nat.pow 10 (-start).toNat < den
    if below then start else decimalPoint num den (start + 1) fuel

/--
The decimals with `count` digits next to `±significand * 2 ^ exponent` that read back as it, nearest
first. All numbers are multiples of a common unit so that the comparisons are exact: `value` is the
double, `low` and `high` delimit what rounds to it.
-/
def candidate? (value low high unit : Nat) (closed : Bool) : Option Nat :=
  let below := value / unit
  let above := below + 1
  let inside (x : Nat) : Bool :=
    if closed then low ≤ x * unit && x * unit ≤ high else low < x * unit && x * unit < high
  let toBelow := value - below * unit
  let toAbove := above * unit - value
  match inside below && below != 0, inside above with
  | true, true => some (if toAbove < toBelow then above else below)
  | true, false => some below
  | false, true => some above
  | false, false => none

/--
The shortest decimal of a positive finite double.
-/
def shortest (significand : Nat) (exponent : Int) : Decimal :=
  let (num, den) := fraction significand exponent
  let bits : Int := significand.log2 + exponent
  -- `⌊bits * log₁₀ 2⌋` from below
  let point := decimalPoint num den (bits * 30103 / 100000 - 1) 4
  -- everything is counted in quarters of the last bit
  let narrow := significand == Nat.pow 2 52 && exponent != -1074
  let value := 4 * significand
  let low := value - (if narrow then 1 else 2)
  let high := value + 2
  go value low high (exponent - 2) (significand % 2 == 0) point 17 1
where
  /--
  Tries one digit more at a time. The unit of the grid is `10 ^ (point - count)`, expressed in units
  of `2 ^ scale`; whichever of the two powers is fractional is moved to the other side.
  -/
  go (value low high : Nat) (scale : Int) (closed : Bool) (point : Int) : Nat → Nat → Decimal
    | 0, count => { digits := 0, count, point }
    | fuel + 1, count =>
      let grid := point - count
      let tens := if 0 ≤ grid then Nat.pow 10 grid.toNat else 1
      let fifths := if 0 ≤ grid then 1 else Nat.pow 10 (-grid).toNat
      let twos := if 0 ≤ scale then Nat.pow 2 scale.toNat else 1
      let halves := if 0 ≤ scale then 1 else Nat.pow 2 (-scale).toNat
      let times := fifths * twos
      match candidate? (value * times) (low * times) (high * times) (tens * halves) closed with
      | some digits =>
        -- rounding up may give a power of ten with one digit more
        if digits == Nat.pow 10 count then { digits := 1, count := 1, point := point + 1 }
        else { digits, count, point }
      | none => go value low high scale closed point fuel (count + 1)

def zeros (n : Nat) : String := String.ofList (List.replicate n '0')

def Decimal.digitText (d : Decimal) : String :=
  let text := toString d.digits
  zeros (d.count - text.length) ++ text

/--
The text of a decimal. The point is written where it stands as long as that takes no more than four
leading or sixteen integer digits; otherwise the number is written with an exponent of at least two
digits. There is always a digit after the point, unless there is an exponent.
-/
def Decimal.text (d : Decimal) : String :=
  let digits := d.digitText
  let count : Int := digits.length
  if -4 < d.point && d.point ≤ 16 then
    if d.point ≤ 0 then
      "0." ++ zeros (-d.point).toNat ++ digits
    else if count ≤ d.point then
      digits ++ zeros (d.point - count).toNat ++ ".0"
    else
      String.ofList (digits.toList.take d.point.toNat) ++ "." ++
        String.ofList (digits.toList.drop d.point.toNat)
  else
    let exponent := d.point - 1
    let power := toString exponent.natAbs
    let tail := String.ofList (digits.toList.drop 1)
    String.ofList (digits.toList.take 1) ++ (if tail.isEmpty then "" else "." ++ tail) ++ "e" ++
      (if exponent < 0 then "-" else "+") ++ zeros (2 - power.length) ++ power

def text : Binary64 → String
  | .nan => "nan"
  | .infinite negative => if negative then "-inf" else "inf"
  | .finite negative significand exponent =>
    (if negative then "-" else "") ++
      (if significand == 0 then "0.0" else (shortest significand exponent).text)

end Binary64

end ParadigmScan
