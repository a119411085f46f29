import ParadigmScan.Encoding.Utf8
import ParadigmScan.Json
import ParadigmScan.Proofs.Number.Numerals

/-!
This module contains the grammar of JSON and a reader for it. The grammar says which texts there are and what they stand
for; the reader shows that no text stands for two things.
-/

namespace ParadigmScan

namespace Json

/--
What a JSON text stands for. A string is a sequence of code points, among which may be surrogates.
-/
inductive Data where
  | null
  | truth (value : Bool)
  | integer (value : Int)
  | number (value : Binary64)
  | text (value : List CodePoint)
  | list (items : List Data)
  | object (members : List (List CodePoint × Data))

def words : List (List Char × Data) :=
  [("null".toList, .null), ("true".toList, .truth true), ("false".toList, .truth false)]

def isBlank (c : Char) : Bool := c == ' ' || c == '\t' || c == '\n' || c == '\r'

def AreBlank (text : List Char) : Prop := ∀ c ∈ text, isBlank c = true

def ofNumeral (n : Numeral) : Data :=
  if n.isInteger then .integer (if n.negative then -n.digits else n.digits)
  else .number (.ofDecimal n.negative n.digits n.scale)

section Grammar

def shortEscapes : List (Char × CodePoint) :=
  [('"', 34), ('\\', 92), ('/', 47), ('b', 8), ('f', 12), ('n', 10), ('r', 13), ('t', 9)]

def hexValue? (c : Char) : Option Nat :=
  if c.isDigit then some (c.toNat - 48)
  else if 97 ≤ c.toNat && c.toNat ≤ 102 then some (c.toNat - 87)
  else if 65 ≤ c.toNat && c.toNat ≤ 70 then some (c.toNat - 55)
  else none

inductive IsUnit : List Char → CodePoint → Prop
  | plain {c : Char} : 32 ≤ c.toNat → c ≠ '"' → c ≠ '\\' → IsUnit [c] c.toNat
  | short {c : Char} {point : CodePoint} : (c, point) ∈ shortEscapes → IsUnit ['\\', c] point
  | hex {a b c d : Char} {w x y z : Nat} :
    hexValue? a = some w → hexValue? b = some x → hexValue? c = some y → hexValue? d = some z →
      IsUnit ['\\', 'u', a, b, c, d] (((w * 16 + x) * 16 + y) * 16 + z)

inductive IsContent : List Char → List CodePoint → Prop
  | nil : IsContent [] []
  | cons {unit rest : List Char} {point : CodePoint} {points : List CodePoint} :
    IsUnit unit point → IsContent rest points → IsContent (unit ++ rest) (point :: points)

def joinPairs : List CodePoint → List CodePoint
  | high :: low :: rest =>
    if 0xD800 ≤ high ∧ high < 0xDC00 ∧ 0xDC00 ≤ low ∧ low < 0xE000 then
      (0x10000 + (high - 0xD800) * 1024 + (low - 0xDC00)) :: joinPairs rest
    else high :: joinPairs (low :: rest)
  | rest => rest

inductive IsText : List Char → List CodePoint → Prop
  | mk {content : List Char} {points : List CodePoint} :
    IsContent content points → IsText ('"' :: content ++ ['"']) (joinPairs points)

/--
Texts with commas between them.
-/
inductive IsSeparated {α : Type} (IsItem : List Char → α → Prop) : List Char → List α → Prop
  | one {text : List Char} {item : α} : IsItem text item → IsSeparated IsItem text [item]
  | cons {text rest : List Char} {item : α} {items : List α} :
    IsItem text item → IsSeparated IsItem rest items → IsSeparated IsItem (text ++ ',' :: rest) (item :: items)

mutual

inductive IsValue : List Char → Data → Prop
  | word {word : List Char} {value : Data} : (word, value) ∈ words → IsValue word value
  | number {n : Numeral} : n.IsWellFormed → IsValue n.text (ofNumeral n)
  | text {text : List Char} {value : List CodePoint} : IsText text value → IsValue text (.text value)
  | emptyList {blanks : List Char} : AreBlank blanks → IsValue ('[' :: blanks ++ [']']) (.list [])
  | list {text : List Char} {items : List Data} :
    IsSeparated IsItem text items → IsValue ('[' :: text ++ [']']) (.list items)
  | emptyObject {blanks : List Char} : AreBlank blanks → IsValue ('\x7b' :: blanks ++ ['\x7d']) (.object [])
  | object {text : List Char} {members : List (List CodePoint × Data)} :
    IsSeparated IsMember text members → IsValue ('\x7b' :: text ++ ['\x7d']) (.object members)

inductive IsItem : List Char → Data → Prop
  | mk {before text after : List Char} {value : Data} :
    AreBlank before → IsValue text value → AreBlank after → IsItem (before ++ text ++ after) value

inductive IsMember : List Char → List CodePoint × Data → Prop
  | mk {before key middle text : List Char} {name : List CodePoint} {value : Data} :
    AreBlank before → IsText key name → AreBlank middle → IsItem text value →
      IsMember (before ++ key ++ middle ++ ':' :: text) (name, value)

end

end Grammar

section Reader

def afterBlanks (text : List Char) : List Char := text.dropWhile isBlank

def readHex : List Char → Option (CodePoint × List Char)
  | a :: b :: c :: d :: rest => do
    let w ← hexValue? a
    let x ← hexValue? b
    let y ← hexValue? c
    let z ← hexValue? d
    return (((w * 16 + x) * 16 + y) * 16 + z, rest)
  | _ => none

def readUnit : List Char → Option (CodePoint × List Char)
  | [] => none
  | c :: rest =>
    if c = '\\' then
      if rest.head? = some 'u' then readHex rest.tail
      else (shortEscapes.lookup (rest.headD ' ')).map (·, rest.tail)
    else if c = '"' then none
    else if c.toNat < 32 then none
    else some (c.toNat, rest)

def readContent : Nat → List Char → Option (List CodePoint × List Char)
  | 0, _ => none
  | fuel + 1, input =>
    if input.head? = some '"' then some ([], input.tail)
    else (readUnit input).bind fun unit =>
      (readContent fuel unit.2).map fun content => (unit.1 :: content.1, content.2)

def readText (fuel : Nat) (text : List Char) : Option (List CodePoint × List Char) :=
  if text.head? = some '"' then
    (readContent fuel text.tail).map fun content => (joinPairs content.1, content.2)
  else none

def readFraction (text : List Char) : Option (List Char × List Char) :=
  if text.head? = some '.' then
    let fraction := text.tail.takeWhile Char.isDigit
    if fraction = [] then none else some (fraction, text.tail.dropWhile Char.isDigit)
  else some ([], text)

def readExponent (text : List Char) : Option (Option (List Char × List Char) × List Char) :=
  match Numeral.marks.find? (·.isPrefixOf text) with
  | none => some (none, text)
  | some mark =>
    let rest := text.drop mark.length
    let digits := rest.takeWhile Char.isDigit
    if digits = [] then none else some (some (mark, digits), rest.dropWhile Char.isDigit)

def readUnsigned (negative : Bool) (text : List Char) : Option (Numeral × List Char) :=
  let whole := text.takeWhile Char.isDigit
  if whole = [] ∨ whole.head? = some '0' ∧ whole ≠ ['0'] then none
  else (readFraction (text.dropWhile Char.isDigit)).bind fun fraction =>
    (readExponent fraction.2).map fun exponent =>
      ({ negative, whole, fraction := fraction.1, exponent := exponent.1 }, exponent.2)

def readNumeral (text : List Char) : Option (Numeral × List Char) :=
  if text.head? = some '-' then readUnsigned true text.tail else readUnsigned false text

section Sequences

variable {α : Type} (readItem : List Char → Option (α × List Char)) (close : Char)

def readSeparated : Nat → List Char → Option (List α × List Char)
  | 0, _ => none
  | fuel + 1, input =>
    (readItem input).bind fun item =>
      if item.2.head? = some ',' then
        (readSeparated fuel item.2.tail).map fun items => (item.1 :: items.1, items.2)
      else if item.2.head? = some close then some ([item.1], item.2.tail)
      else none

def readSequence (fuel : Nat) (text : List Char) : Option (List α × List Char) :=
  if (afterBlanks text).head? = some close then some ([], (afterBlanks text).tail)
  else readSeparated readItem close fuel text

end Sequences

def readItem (readValue : List Char → Option (Data × List Char)) (text : List Char) :
    Option (Data × List Char) :=
  (readValue (afterBlanks text)).map fun value => (value.1, afterBlanks value.2)

def readMember (readValue : List Char → Option (Data × List Char)) (fuel : Nat) (text : List Char) :
    Option ((List CodePoint × Data) × List Char) :=
  (readText fuel (afterBlanks text)).bind fun key =>
    if (afterBlanks key.2).head? = some ':' then
      (readItem readValue (afterBlanks key.2).tail).map fun value => ((key.1, value.1), value.2)
    else none

def readValue : Nat → List Char → Option (Data × List Char)
  | 0, _ => none
  | fuel + 1, input =>
    if input.head? = some '"' then
      (readText fuel input).map fun result => (.text result.1, result.2)
    else if input.head? = some '[' then
      (readSequence (readItem (readValue fuel)) ']' fuel input.tail).map fun result =>
        (.list result.1, result.2)
    else if input.head? = some '\x7b' then
      (readSequence (readMember (readValue fuel) fuel) '\x7d' fuel input.tail).map fun result =>
        (.object result.1, result.2)
    else match words.find? (·.1.isPrefixOf input) with
      | some word => some (word.2, input.drop word.1.length)
      | none => (readNumeral input).map fun result => (ofNumeral result.1, result.2)

def decode (text : String) : Option Data :=
  (readItem (readValue (text.length + 1)) text.toList).bind fun result =>
    if result.2 = [] then some result.1 else none

end Reader

end Json

end ParadigmScan
