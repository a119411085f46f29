/-!
This module contains the UTF-8 form of text. Text is a list of code points; it may hold surrogates, which
have no UTF-8 form. Where bytes are not the form of a code point, the longest beginning of a form is
replaced as a whole.
-/

namespace ParadigmScan

abbrev CodePoint := Nat

namespace CodePoint

def replacement : CodePoint := 0xFFFD

def isSurrogate (c : CodePoint) : Bool := 0xD800 ≤ c && c < 0xE000

end CodePoint

namespace Encoding

inductive Utf8Error where
  | invalidStart
  | invalidContinuation
  | unexpectedEnd
  deriving DecidableEq, Repr, Inhabited

namespace Utf8Error

def reason : Utf8Error → String
  | invalidStart => "invalid start byte"
  | invalidContinuation => "invalid continuation byte"
  | unexpectedEnd => "unexpected end of data"

end Utf8Error

def continuation (low high : Nat) (b : UInt8) : Option Nat :=
  if low ≤ b.toNat && b.toNat ≤ high then some (b.toNat - 0x80) else none

/--
Reads the bytes behind the first one of a form. The bounds hold for the next byte only. Returns the
result and the number of bytes taken.
-/
def takeContinuations (low high : Nat) :
    Nat → List UInt8 → Nat → Nat → Except Utf8Error CodePoint × Nat
  | 0, _, value, taken => (.ok value, taken)
  | _ + 1, [], _, taken => (.error .unexpectedEnd, taken)
  | count + 1, b :: rest, value, taken =>
    match continuation low high b with
    | some bits => takeContinuations 0x80 0xBF count rest (value * 64 + bits) (taken + 1)
    | none => (.error .invalidContinuation, taken)

/--
Decodes the code point at the start of a list of bytes. Returns it and the number of bytes taken behind
the first one.
-/
def utf8First (b : UInt8) (rest : List UInt8) : Except Utf8Error CodePoint × Nat :=
  let n := b.toNat
  if n < 0x80 then (.ok n, 0)
  else if n < 0xC2 then (.error .invalidStart, 0)
  else if n < 0xE0 then takeContinuations 0x80 0xBF 1 rest (n - 0xC0) 0
  else if n == 0xE0 then takeContinuations 0xA0 0xBF 2 rest 0 0
  else if n == 0xED then takeContinuations 0x80 0x9F 2 rest 0x0D 0
  else if n < 0xF0 then takeContinuations 0x80 0xBF 2 rest (n - 0xE0) 0
  else if n == 0xF0 then takeContinuations 0x90 0xBF 3 rest 0 0
  else if n < 0xF4 then takeContinuations 0x80 0xBF 3 rest (n - 0xF0) 0
  else if n == 0xF4 then takeContinuations 0x80 0x8F 3 rest 4 0
  else (.error .invalidStart, 0)

def decodeUtf8 : List UInt8 → List CodePoint
  | [] => []
  | b :: rest =>
    let (result, taken) := utf8First b rest
    match result with
    | .ok c => c :: decodeUtf8 (rest.drop taken)
    | .error _ => .replacement :: decodeUtf8 (rest.drop taken)
termination_by bytes => bytes.length
decreasing_by all_goals simp only [List.length_cons, List.length_drop]; omega

def utf8Fault? : Nat → List UInt8 → Option (Nat × Nat × Utf8Error)
  | _, [] => none
  | position, b :: rest =>
    let (result, taken) := utf8First b rest
    match result with
    | .ok _ => utf8Fault? (position + 1 + taken) (rest.drop taken)
    | .error error => some (position, 1 + taken, error)
termination_by _ bytes => bytes.length
decreasing_by all_goals simp only [List.length_cons, List.length_drop]; omega

def utf8Form (c : CodePoint) : List UInt8 :=
  let tail (shift : Nat) : UInt8 := (0x80 + (c / Nat.pow 2 shift) % 64).toUInt8
  if c < 0x80 then [c.toUInt8]
  else if c < 0x800 then [(0xC0 + c / 64).toUInt8, tail 0]
  else if c < 0x10000 then [(0xE0 + c / 4096).toUInt8, tail 6, tail 0]
  else [(0xF0 + c / 262144).toUInt8, tail 12, tail 6, tail 0]

def encodeUtf8 (text : List CodePoint) : List UInt8 :=
  text.flatMap utf8Form

def surrogateRun? (text : List CodePoint) : Option (Nat × Nat) :=
  let before := text.takeWhile (!CodePoint.isSurrogate ·)
  let run := (text.drop before.length).takeWhile CodePoint.isSurrogate
  if run.isEmpty then none else some (before.length, run.length)

def toChars (text : List CodePoint) : List Char := text.map Char.ofNat

def ofChars (chars : List Char) : List CodePoint := chars.map Char.toNat

end Encoding

end ParadigmScan
