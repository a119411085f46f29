import ParadigmScan.Number.Shortest

/-!
This module contains JSON values and their text. The text holds ASCII characters only: all others are
escaped by their UTF-16 units. The members of an object keep their order.
-/

namespace ParadigmScan

inductive Json where
  | null
  | integer (value : Int)
  | number (value : Binary64)
  | text (value : String)
  | object (members : List (String × Json))
  deriving Inhabited

namespace Json

/--
How the members of objects are laid out: on one line, or on lines of their own that are indented by
one unit per level.
-/
inductive Layout where
  | compact
  | indented (unit : String)
  deriving DecidableEq, Repr, Inhabited

def hexDigit (n : Nat) : Char := (Nat.toDigits 16 n).headD '0'

/--
The escape of a UTF-16 unit.
-/
def escapeUnit (unit : Nat) : List Char :=
  ['\\', 'u', hexDigit (unit / 4096 % 16), hexDigit (unit / 256 % 16), hexDigit (unit / 16 % 16),
    hexDigit (unit % 16)]

def units (c : Char) : List Nat :=
  if c.toNat < 0x10000 then
    [c.toNat]
  else
    let rest := c.toNat - 0x10000
    [0xD800 + rest / 1024, 0xDC00 + rest % 1024]

def escapeChar (c : Char) : List Char :=
  if c == '"' then ['\\', '"']
  else if c == '\\' then ['\\', '\\']
  else if c == '\n' then ['\\', 'n']
  else if c == '\r' then ['\\', 'r']
  else if c == '\t' then ['\\', 't']
  else if c.toNat == 8 then ['\\', 'b']
  else if c.toNat == 12 then ['\\', 'f']
  else if 32 ≤ c.toNat && c.toNat < 127 then [c]
  else (units c).flatMap escapeUnit

def quote (s : String) : String :=
  "\"" ++ String.ofList (s.toList.flatMap escapeChar) ++ "\""

def Layout.lineBreak (layout : Layout) (level : Nat) : String :=
  match layout with
  | .compact => ""
  | .indented unit => "\n" ++ String.join (List.replicate level unit)

def Layout.separator : Layout → String
  | .compact => ", "
  | .indented _ => ","

mutual

def renderAt (layout : Layout) (level : Nat) : Json → String
  | null => "null"
  | integer value => toString value
  | number value => value.text
  | text value => quote value
  | object [] => "\x7b\x7d"
  | object (first :: rest) =>
    "\x7b" ++ renderMember layout (level + 1) first ++ renderRest layout (level + 1) rest ++
      layout.lineBreak level ++ "\x7d"

def renderMember (layout : Layout) (level : Nat) : String × Json → String
  | (key, value) => layout.lineBreak level ++ quote key ++ ": " ++ renderAt layout level value

def renderRest (layout : Layout) (level : Nat) : List (String × Json) → String
  | [] => ""
  | member :: rest =>
    layout.separator ++ renderMember layout level member ++ renderRest layout level rest

end

def render (layout : Layout) (value : Json) : String :=
  renderAt layout 0 value

end Json

end ParadigmScan
