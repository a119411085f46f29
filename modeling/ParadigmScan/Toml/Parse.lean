import ParadigmScan.Text.Quoted

/-!
This module contains the errors of TOML documents, and the readers of blanks, comments, strings and keys.
A reader takes characters from the front of what is left of the document.
-/

namespace ParadigmScan

namespace Toml

abbrev Key := List String

namespace Key

def describe (key : Key) : String :=
  match key with
  | [part] => "(" ++ Text.quoted part ++ ",)"
  | parts => "(" ++ ", ".intercalate (parts.map Text.quoted) ++ ")"

end Key

inductive Reason where
  | invalidStatement
  | expectedLineEnd
  | expectedText (text : String)
  | invalidCharacter (c : Char)
  | declaredTwice (key : Key)
  | immutable (key : Key)
  | redefined (key : Key)
  | overwritten
  | unclosedTable
  | unclosedArrayTable
  | expectedEquals
  | invalidKey
  | unclosedArray
  | unclosedInline
  | duplicateInline (part : String)
  | unescapedBackslash
  | invalidHex
  | notScalar
  | unterminated
  | illegalCharacter (c : Char)
  | invalidDate
  | invalidValue
  deriving DecidableEq, Repr, Inhabited

namespace Reason

def message : Reason → String
  | invalidStatement => "Invalid statement"
  | expectedLineEnd => "Expected newline or end of document after a statement"
  | expectedText text => "Expected " ++ Text.quoted text
  | invalidCharacter c => "Found invalid character " ++ Text.quoted (String.ofList [c])
  | declaredTwice key => "Cannot declare " ++ key.describe ++ " twice"
  | immutable key => "Cannot mutate immutable namespace " ++ key.describe
  | redefined key => "Cannot redefine namespace " ++ key.describe
  | overwritten => "Cannot overwrite a value"
  | unclosedTable => "Expected ']' at the end of a table declaration"
  | unclosedArrayTable => "Expected ']]' at the end of an array declaration"
  | expectedEquals => "Expected '=' after a key in a key/value pair"
  | invalidKey => "Invalid initial character for a key part"
  | unclosedArray => "Unclosed array"
  | unclosedInline => "Unclosed inline table"
  | duplicateInline part => "Duplicate inline table key " ++ Text.quoted part
  | unescapedBackslash => "Unescaped '\\' in a string"
  | invalidHex => "Invalid hex value"
  | notScalar => "Escaped character is not a Unicode scalar value"
  | unterminated => "Unterminated string"
  | illegalCharacter c => "Illegal character " ++ Text.quoted (String.ofList [c])
  | invalidDate => "Invalid date or datetime"
  | invalidValue => "Invalid value"

end Reason

/--
Why a document cannot be read: something is wrong where `rest` is left, or an integer has more digits than
are converted.
-/
inductive Error where
  | malformed (reason : Reason) (rest : List Char)
  | longInteger (digits : Nat)
  deriving DecidableEq, Repr, Inhabited

abbrev Parse := StateT (List Char) (Except Error)

def fail (reason : Reason) : Parse α := do
  throw (.malformed reason (← get))

def peek : Parse (Option Char) := do
  return (← get).head?

def looksAt (text : String) : Parse Bool := do
  return text.toList.isPrefixOf (← get)

def advance (count : Nat) : Parse Unit :=
  modify (·.drop count)

def isBlank (c : Char) : Bool := c == ' ' || c == '\t'

def skipWhile (p : Char → Bool) : Parse Unit :=
  modify (·.dropWhile p)

def skipBlanks : Parse Unit := skipWhile isBlank

def isControl (c : Char) : Bool :=
  (c.toNat < 32 && c != '\t') || c.toNat == 127

def splitAtText? (text : List Char) : List Char → Option (List Char × List Char)
  | [] => if text.isEmpty then some ([], []) else none
  | c :: rest =>
    if text.isPrefixOf (c :: rest) then some ([], c :: rest)
    else (splitAtText? text rest).map fun (before, after) => (c :: before, after)

/--
Reads up to a text, which is left. Characters of the kind `illegal` must not come before it.
-/
def takeUntil (text : String) (illegal : Char → Bool) (required : Bool) : Parse String := do
  let all ← get
  match splitAtText? text.toList all with
  | none =>
    if required then throw (.malformed (.expectedText text) [])
    go all all []
  | some (before, after) => go all before after
where
  go (all before after : List Char) : Parse String := do
    match before.find? illegal with
    | some c => throw (.malformed (.invalidCharacter c) (all.dropWhile (!illegal ·)))
    | none =>
      set after
      return String.ofList before

/--
Moves behind a comment if one comes next. Its line end is left.
-/
def skipComment : Parse Unit := do
  if ← looksAt "#" then
    advance 1
    discard <| takeUntil "\n" isControl false

def skipAllBlanks : Parse Unit := do
  go ((← get).length + 1)
where
  go : Nat → Parse Unit
    | 0 => pure ()
    | fuel + 1 => do
      let before := (← get).length
      skipWhile fun c => isBlank c || c == '\n'
      skipComment
      if (← get).length < before then go fuel

def hexValue? (c : Char) : Option Nat :=
  if c.isDigit then some (c.toNat - 48)
  else if 'a' ≤ c && c ≤ 'f' then some (c.toNat - 87)
  else if 'A' ≤ c && c ≤ 'F' then some (c.toNat - 55)
  else none

def hexChar (count : Nat) : Parse (List Char) := do
  let digits := (← get).take count
  let values := digits.filterMap hexValue?
  if values.length != count then fail .invalidHex
  advance count
  let value := values.foldl (fun n d => n * 16 + d) 0
  if (0xD800 ≤ value && value < 0xE000) || 0x110000 ≤ value then fail .notScalar
  return [Char.ofNat value]

/--
Reads an escape, from its backslash on. In a string of several lines a backslash at the end of a line
removes the line end and the blanks behind it.
-/
def escape (multiline : Bool) : Parse (List Char) := do
  let next := ((← get).drop 1).head?
  advance 2
  match next with
  | some 'u' => hexChar 4
  | some 'U' => hexChar 8
  | some 'b' => return ['\x08']
  | some 't' => return ['\t']
  | some 'n' => return ['\n']
  | some 'f' => return ['\x0c']
  | some 'r' => return ['\r']
  | some '"' => return ['"']
  | some '\\' => return ['\\']
  | some c =>
    if multiline && (isBlank c || c == '\n') then
      if c != '\n' then
        skipBlanks
        match ← peek with
        | none => return []
        | some '\n' => advance 1
        | some _ => fail .unescapedBackslash
      skipWhile fun c => isBlank c || c == '\n'
      return []
    else
      fail .unescapedBackslash
  | none => fail .unescapedBackslash

def basicString (multiline : Bool) : Parse String := do
  go ((← get).length + 1) []
where
  go : Nat → List Char → Parse String
    | 0, _ => fail .unterminated
    | fuel + 1, read => do
      match ← peek with
      | none => fail .unterminated
      | some '"' =>
        if !multiline then
          advance 1
          return String.ofList read.reverse
        else if ← looksAt "\"\"\"" then
          advance 3
          return String.ofList read.reverse
        else
          advance 1
          go fuel ('"' :: read)
      | some '\\' => do
        let chars ← escape multiline
        go fuel (chars.reverse ++ read)
      | some c =>
        if isControl c && !(multiline && c == '\n') then fail (.illegalCharacter c)
        advance 1
        go fuel (c :: read)

def literalString : Parse String := do
  advance 1
  let text ← takeUntil "'" isControl true
  advance 1
  return text

/--
Reads a string of several lines, from its opening quotes on. Up to two quotes before the closing ones belong
to the string.
-/
def multilineString (literal : Bool) : Parse String := do
  advance 3
  if ← looksAt "\n" then advance 1
  let quote := if literal then "'" else "\""
  let text ←
    if literal then
      let text ← takeUntil "'''" (fun c => isControl c && c != '\n') true
      advance 3
      pure text
    else
      basicString true
  if ← looksAt quote then
    advance 1
    if ← looksAt quote then
      advance 1
      return text ++ quote ++ quote
    return text ++ quote
  return text

def isKeyChar (c : Char) : Bool :=
  c.isAlphanum || c == '-' || c == '_'

def keyPart : Parse String := do
  match ← peek with
  | some '\'' => literalString
  | some '"' => do
    advance 1
    basicString false
  | some c =>
    if !isKeyChar c then fail .invalidKey
    let part := (← get).takeWhile isKeyChar
    skipWhile isKeyChar
    return String.ofList part
  | none => fail .invalidKey

def key : Parse Key := do
  let first ← keyPart
  skipBlanks
  go ((← get).length + 1) [first]
where
  go : Nat → List String → Parse Key
    | 0, read => return read.reverse
    | fuel + 1, read => do
      if ← looksAt "." then
        advance 1
        skipBlanks
        let part ← keyPart
        skipBlanks
        go fuel (part :: read)
      else
        return read.reverse

end Toml

end ParadigmScan
