import ParadigmScan.Table
import ParadigmScan.Toml.Scalar

/-!
This module contains the values of TOML documents, among them arrays and inline tables, and the nesting of
tables by dotted keys.
-/

namespace ParadigmScan

namespace Toml

/--
Changes the table that a key leads to. Tables that are missing on the way are made; an array of tables leads
to its last table, if `lists` allows it. There is no result if something else is in the way.
-/
def alter (lists : Bool) (change : Table Value → Option (Table Value)) :
    Key → Table Value → Option (Table Value)
  | [], table => change table
  | part :: rest, table =>
    match table.lookup part with
    | none => do
      let inner ← alter lists change rest []
      return table ++ [(part, .table inner)]
    | some (.table inner) => do
      let inner ← alter lists change rest inner
      return table.set part (.table inner)
    | some (.list items) =>
      match lists, items.getLast? with
      | true, some (.table inner) => do
        let inner ← alter lists change rest inner
        return table.set part (.list (items.dropLast ++ [.table inner]))
      | _, _ => none
    | some _ => none

/--
What is known about a key: that its table was opened, or that its value cannot be changed.
-/
inductive Flag where
  | opened
  | frozen
  deriving DecidableEq, Repr, Inhabited

/--
A flag of a key, and whether it holds for the keys below as well.
-/
structure Mark where
  key : Key
  flag : Flag
  below : Bool
  deriving DecidableEq, Repr, Inhabited

def hasFlag (marks : List Mark) (key : Key) (flag : Flag) : Bool :=
  marks.any fun mark =>
    mark.flag == flag && if mark.below then mark.key.isPrefixOf key else mark.key == key

def isContainer : Value → Bool
  | .table _ | .list _ => true
  | _ => false

mutual

/--
Reads a value. The fuel bounds how many values are read.
-/
def value : Nat → Parse Value
  | 0 => fail .invalidValue
  | fuel + 1 => do
    match ← peek with
    | some '"' =>
      if ← looksAt "\"\"\"" then
        return .text (← multilineString false)
      else
        advance 1
        return .text (← basicString false)
    | some '\'' =>
      if ← looksAt "'''" then
        return .text (← multilineString true)
      else
        return .text (← literalString)
    | some '[' => do
      advance 1
      skipAllBlanks
      if ← looksAt "]" then
        advance 1
        return .list []
      else
        return .list (← arrayItems fuel [])
    | some '\x7b' => do
      advance 1
      skipBlanks
      if ← looksAt "\x7d" then
        advance 1
        return .table []
      else
        return .table (← inlineMembers fuel [] [])
    | some c => do
      if c == 't' && (← looksAt "true") then
        advance 4
        return .boolean true
      else if c == 'f' && (← looksAt "false") then
        advance 5
        return .boolean false
      else
        scalar
    | none => fail .invalidValue

def arrayItems : Nat → List Value → Parse (List Value)
  | 0, _ => fail .invalidValue
  | fuel + 1, read => do
    let item ← value fuel
    let read := item :: read
    skipAllBlanks
    match ← peek with
    | some ']' =>
      advance 1
      return read.reverse
    | some ',' => do
      advance 1
      skipAllBlanks
      if ← looksAt "]" then
        advance 1
        return read.reverse
      else
        arrayItems fuel read
    | _ => fail .unclosedArray

def inlineMembers : Nat → List Mark → Table Value → Parse (Table Value)
  | 0, _, _ => fail .invalidValue
  | fuel + 1, marks, table => do
    let (key, item) ← keyValue fuel
    if hasFlag marks key .frozen then fail (.immutable key)
    let last := key.getLast?.getD ""
    let some inner := alter false some key.dropLast table | fail .overwritten
    let isTaken (table : Table Value) : Bool := (table.lookup last).isSome
    let some _ := alter false (fun t => if isTaken t then none else some t) key.dropLast inner
      | fail (.duplicateInline last)
    let some table := alter false (fun t => some (t.set last item)) key.dropLast inner
      | fail .overwritten
    skipBlanks
    match ← peek with
    | some '\x7d' =>
      advance 1
      return table
    | some ',' => do
      advance 1
      skipBlanks
      let marks := if isContainer item then { key, flag := .frozen, below := true } :: marks else marks
      inlineMembers fuel marks table
    | _ => fail .unclosedInline

def keyValue : Nat → Parse (Key × Value)
  | 0 => fail .invalidValue
  | fuel + 1 => do
    let key ← key
    if !(← looksAt "=") then fail .expectedEquals
    advance 1
    skipBlanks
    return (key, ← value fuel)

end

end Toml

end ParadigmScan
