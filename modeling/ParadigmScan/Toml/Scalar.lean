import ParadigmScan.Toml.Parse
import ParadigmScan.Value

/-!
This module contains the numbers, dates and times of TOML documents.
-/

namespace ParadigmScan

namespace Toml

/--
Splits digits from the front of a text, with single underscores between them. The first character has to
be a digit.
-/
def digits? (isDigit : Char → Bool) : List Char → Option (List Char × List Char)
  | [] => none
  | c :: rest => if isDigit c then some (go rest [c]) else none
where
  go : List Char → List Char → List Char × List Char
    | '_' :: c :: rest, read =>
      if isDigit c then go rest (c :: read) else (read.reverse, '_' :: c :: rest)
    | c :: rest, read => if isDigit c then go rest (c :: read) else (read.reverse, c :: rest)
    | [], read => (read.reverse, [])

def valueOf (base : Nat) (digits : List Char) : Nat :=
  digits.foldl (fun n c => n * base + (hexValue? c).getD 0) 0

def basedInteger? : List Char → Option (Value × List Char)
  | '0' :: 'x' :: rest => read 16 (fun c => (hexValue? c).isSome) rest
  | '0' :: 'b' :: rest => read 2 (fun c => c == '0' || c == '1') rest
  | '0' :: 'o' :: rest => read 8 (fun c => '0' ≤ c && c ≤ '7') rest
  | _ => none
where
  read (base : Nat) (isDigit : Char → Bool) (text : List Char) : Option (Value × List Char) := do
    let (digits, rest) ← digits? isDigit text
    return (.integer (valueOf base digits), rest)

def sign : List Char → Bool × List Char
  | '-' :: rest => (true, rest)
  | '+' :: rest => (false, rest)
  | text => (false, text)

/--
Splits the digits before the point of a decimal number from the front of a text. Only zero itself starts
with a zero.
-/
def wholePart? : List Char → Option (List Char × List Char)
  | '0' :: rest => some (['0'], rest)
  | text => digits? Char.isDigit text

def fractionPart : List Char → List Char × List Char
  | '.' :: rest => (digits? Char.isDigit rest).getD ([], '.' :: rest)
  | text => ([], text)

def exponentPart : List Char → Option Int × List Char
  | [] => (none, [])
  | e :: text =>
    if e == 'e' || e == 'E' then
      let (negative, rest) := sign text
      match digits? Char.isDigit rest with
      | none => (none, e :: text)
      | some (digits, rest) =>
        let value : Int := valueOf 10 digits
        (some (if negative then -value else value), rest)
    else
      (none, e :: text)

/--
Splits a decimal number from the front of a text. With a point or an exponent it is a double, otherwise an
integer.
-/
def decimalNumber? (text : List Char) : Option (Except Error Value × List Char) := do
  let (negative, unsigned) := sign text
  let (whole, rest) ← wholePart? unsigned
  let (fraction, rest) := fractionPart rest
  let (exponent, rest) := exponentPart rest
  if fraction.isEmpty && exponent.isNone then
    if Value.maxDigits < whole.length then
      return (.error (.longInteger whole.length), rest)
    else
      let value : Int := valueOf 10 whole
      return (.ok (.integer (if negative then -value else value)), rest)
  else
    let digits := valueOf 10 (whole ++ fraction)
    let scale : Int := exponent.getD 0 - (fraction.length : Int)
    return (.ok (.number (.ofDecimal negative digits scale)), rest)

/--
Splits a number with exactly as many digits as asked for from the front of a text. It has to lie in a range.
-/
def fixed? (count low high : Nat) (text : List Char) : Option (Nat × List Char) :=
  let digits := text.take count
  if digits.length == count && digits.all Char.isDigit then
    let value := valueOf 10 digits
    if low ≤ value && value ≤ high then some (value, text.drop count) else none
  else
    none

def char? (p : Char → Bool) : List Char → Option (List Char)
  | c :: rest => if p c then some rest else none
  | [] => none

/--
Splits a time of day from the front of a text. Digits behind the sixth one of a second are dropped.
-/
def time? (text : List Char) : Option (Time × List Char) := do
  let (hour, text) ← fixed? 2 0 23 text
  let text ← char? (· == ':') text
  let (minute, text) ← fixed? 2 0 59 text
  let text ← char? (· == ':') text
  let (second, text) ← fixed? 2 0 59 text
  let digits := match text with
    | '.' :: rest => rest.takeWhile Char.isDigit
    | _ => []
  let kept := digits.take 6
  let microsecond := valueOf 10 (kept ++ List.replicate (6 - kept.length) '0')
  let rest := if digits.isEmpty then text else text.drop (1 + digits.length)
  return ({ hour, minute, second, microsecond }, rest)

def offset? : List Char → Option (Int × List Char)
  | c :: text =>
    if c == 'Z' || c == 'z' then
      some (0, text)
    else if c == '+' || c == '-' then do
      let (hours, text) ← fixed? 2 0 23 text
      let text ← char? (· == ':') text
      let (minutes, text) ← fixed? 2 0 59 text
      let distance : Int := hours * 60 + minutes
      return (if c == '-' then -distance else distance, text)
    else
      none
  | [] => none

def isLeapYear (year : Nat) : Bool :=
  year % 4 == 0 && (year % 100 != 0 || year % 400 == 0)

def daysOf (year month : Nat) : Nat :=
  if month == 2 then (if isLeapYear year then 29 else 28)
  else if [4, 6, 9, 11].contains month then 30
  else 31

/--
Splits a date, with or without a time of day, from the front of a text. It may turn out that there is no such
date.
-/
def date? (text : List Char) : Option (Option Value × List Char) := do
  let (year, text) ← fixed? 4 0 9999 text
  let text ← char? (· == '-') text
  let (month, text) ← fixed? 2 1 12 text
  let text ← char? (· == '-') text
  let (day, text) ← fixed? 2 1 31 text
  let date : Date := { year, month, day }
  let exists_ := 1 ≤ year && day ≤ daysOf year month
  let timed := do
    let text ← char? (fun c => c == 'T' || c == 't' || c == ' ') text
    time? text
  match timed with
  | none => return (if exists_ then some (.date date) else none, text)
  | some (time, text) =>
    let (offset, text) := match offset? text with
      | some (offset, text) => (some offset, text)
      | none => (none, text)
    return (if exists_ then some (.moment date time offset) else none, text)

def specialNumber? (text : List Char) : Option (Value × List Char) :=
  let (negative, unsigned) := sign text
  if "inf".toList.isPrefixOf unsigned then some (.number (.infinite negative), unsigned.drop 3)
  else if "nan".toList.isPrefixOf unsigned then some (.number .nan, unsigned.drop 3)
  else none

def scalar : Parse Value := do
  let text ← get
  if let some (value, rest) := date? text then
    match value with
    | some value =>
      set rest
      return value
    | none => fail .invalidDate
  else if let some (time, rest) := time? text then
    set rest
    return .time time
  else if let some (value, rest) := basedInteger? text then
    set rest
    return value
  else if let some (value, rest) := decimalNumber? text then
    set rest
    value
  else if let some (value, rest) := specialNumber? text then
    set rest
    return value
  else
    fail .invalidValue

end Toml

end ParadigmScan
