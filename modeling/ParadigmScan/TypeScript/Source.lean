import ParadigmScan.Dialect

/-!
This module contains the characters of a program text and the scanning rules that need no grammar:
white space, comments, words, numbers, strings and regular expressions. A scanning function takes the
position where something starts and returns the position after it.
-/

namespace ParadigmScan

namespace TypeScript

structure Source where
  chars : Array Char
  language : Language
  deriving Inhabited

namespace Source

def charAt (s : Source) (pos : Nat) : Char :=
  s.chars.getD pos (Char.ofNat 0)

def size (s : Source) : Nat := s.chars.size

def hasText (s : Source) (pos : Nat) (text : List Char) : Bool :=
  match text with
  | [] => true
  | c :: rest => pos < s.size && s.charAt pos == c && s.hasText (pos + 1) rest

def skipWhile (s : Source) (p : Char → Bool) (pos : Nat) : Nat :=
  go (s.size - pos) pos
where
  go : Nat → Nat → Nat
    | 0, pos => pos
    | fuel + 1, pos => if pos < s.size && p (s.charAt pos) then go fuel (pos + 1) else pos

def slice (s : Source) (start stop : Nat) : String :=
  String.ofList (s.chars.extract start stop).toList

end Source

def isLineEnd (c : Char) : Bool :=
  c == '\n' || c == '\r' || c.toNat == 0x2028 || c.toNat == 0x2029

def isBlank (c : Char) : Bool :=
  let n := c.toNat
  (9 ≤ n && n ≤ 13) || n == 32 || n == 0x85 || n == 0xA0 || n == 0x1680 ||
    (0x2000 ≤ n && n ≤ 0x200B) || n == 0x2028 || n == 0x2029 || n == 0x202F || n == 0x205F ||
    n == 0x2060 || n == 0x3000 || n == 0xFEFF

def isWordChar (c : Char) : Bool :=
  if c.toNat < 128 then c.isAlphanum || c == '_' || c == '$' || c.toNat == 127
  else !isBlank c

def isWordStart (c : Char) : Bool :=
  isWordChar c && !c.isDigit

def isHexDigit (c : Char) : Bool :=
  c.isDigit || ('a' ≤ c && c ≤ 'f') || ('A' ≤ c && c ≤ 'F')

namespace Source

def escapeEnd? (s : Source) (pos : Nat) : Option Nat :=
  if s.hasText pos ['\\', 'u', '\x7b'] then
    let stop := s.skipWhile isHexDigit (pos + 3)
    if s.hasText stop ['\x7d'] then some (stop + 1) else none
  else if s.hasText pos ['\\', 'u'] then
    if (List.range 4).all fun i => isHexDigit (s.charAt (pos + 2 + i)) then some (pos + 6) else none
  else
    none

def wordEnd (s : Source) (pos : Nat) : Nat :=
  if pos < s.size && (isWordStart (s.charAt pos) || (s.escapeEnd? pos).isSome) then
    go (s.size - pos) pos
  else
    pos
where
  go : Nat → Nat → Nat
    | 0, pos => pos
    | fuel + 1, pos =>
      if pos < s.size && isWordChar (s.charAt pos) then
        go fuel (pos + 1)
      else
        match s.escapeEnd? pos with
        | some stop => go fuel stop
        | none => pos

def lineEnd (s : Source) (pos : Nat) : Nat :=
  s.skipWhile (!isLineEnd ·) pos

def blockCommentEnd (s : Source) (pos : Nat) : Nat :=
  go (s.size - pos) pos
where
  go : Nat → Nat → Nat
    | 0, pos => pos
    | fuel + 1, pos =>
      if s.hasText pos ['*', '/'] then pos + 2
      else if pos < s.size then go fuel (pos + 1)
      else pos

def breaksLine (s : Source) (start stop : Nat) : Bool :=
  s.skipWhile (!isLineEnd ·) start < stop

end Source

/--
A place in a program text where a token starts, and whether the token is the first one on its line.
-/
structure Cursor where
  pos : Nat
  newline : Bool
  deriving DecidableEq, Repr, Inhabited

namespace Source

def nextToken (s : Source) (pos : Nat) : Cursor :=
  go (s.size - pos + 1) pos false
where
  go : Nat → Nat → Bool → Cursor
    | 0, pos, newline => { pos, newline }
    | fuel + 1, pos, newline =>
      if pos < s.size && isBlank (s.charAt pos) then
        go fuel (pos + 1) (newline || isLineEnd (s.charAt pos))
      else if s.hasText pos ['/', '/'] then
        go fuel (s.lineEnd pos) newline
      else if s.hasText pos ['/', '*'] then
        let stop := s.blockCommentEnd (pos + 2)
        go fuel stop (newline || s.breaksLine pos stop)
      else
        { pos, newline }

def stringEnd (s : Source) (quote : Char) (pos : Nat) : Nat :=
  go (s.size - pos) pos
where
  go : Nat → Nat → Nat
    | 0, pos => pos
    | fuel + 1, pos =>
      if s.charAt pos == quote then pos + 1
      else if s.charAt pos == '\\' then go fuel (pos + 2)
      else if pos < s.size then go fuel (pos + 1)
      else pos

/--
The end of a regular expression with its flags, from behind its opening slash. A slash inside of
brackets does not end it. There is none if the line ends first.
-/
def regexEnd? (s : Source) (pos : Nat) : Option Nat :=
  go (s.size - pos) pos false
where
  go : Nat → Nat → Bool → Option Nat
    | 0, _, _ => none
    | fuel + 1, pos, inBrackets =>
      let c := s.charAt pos
      if s.size ≤ pos || isLineEnd c then none
      else if c == '\\' then go fuel (pos + 2) inBrackets
      else if c == '[' then go fuel (pos + 1) true
      else if c == ']' then go fuel (pos + 1) false
      else if c == '/' && !inBrackets then some (s.skipWhile isWordChar (pos + 1))
      else go fuel (pos + 1) inBrackets

def isNumberChar (c : Char) : Bool :=
  c.isDigit || c == '_'

def numberEnd (s : Source) (pos : Nat) : Nat :=
  let c := s.charAt pos
  let next := s.charAt (pos + 1)
  if c == '0' && "xXoObB".contains next then
    s.skipWhile isWordChar (pos + 2)
  else if c.isDigit || (c == '.' && next.isDigit) then
    let whole := s.skipWhile isNumberChar pos
    let fraction := if s.charAt whole == '.' then s.skipWhile isNumberChar (whole + 1) else whole
    let sign := if "+-".contains (s.charAt (fraction + 1)) then 1 else 0
    let exponent :=
      if "eE".contains (s.charAt fraction) && (s.charAt (fraction + 1 + sign)).isDigit then
        s.skipWhile isNumberChar (fraction + 1 + sign)
      else
        fraction
    if s.charAt exponent == 'n' then exponent + 1 else exponent
  else
    pos

end Source

end TypeScript

end ParadigmScan
