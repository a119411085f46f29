import ParadigmScan.TypeScript.Parse

/-!
This module contains the constructs through which the grammar is recursive, and what an expression has to
know about the place it stands in. The rules for the single constructs are in the modules beside this one;
each rule takes the reader of the recursive constructs as an argument.
-/

namespace ParadigmScan

namespace TypeScript

structure Place where
  /-- The word `in` is not an operator. -/
  noIn : Bool := false
  /-- A colon behind the parameters of an arrow function does not start its result type. -/
  noResultType : Bool := false
  /-- A line end may end the expression. -/
  lineEnds : Bool := true
  deriving DecidableEq, Repr, Inhabited

namespace Place

def bracketed : Place := { lineEnds := false }

end Place

inductive Goal where
  | statement
  | expression (place : Place)
  | type (noCondition : Bool)
  | pattern
  | element
  | superclass
  deriving DecidableEq, Repr, Inhabited

abbrev Reader := Goal → Parse Tree

namespace Reader

def item (read : Reader) : Parse Tree := read (.expression .bracketed)

def anyType (read : Reader) : Parse Tree := read (.type false)

end Reader

open Parse

def startsName (c : Char) : Bool :=
  isWordStart c || c.isDigit || c == '\\' || c == '#' || c == '"' || c == '\'' || c == '['

def stringLiteral : Parse Tree := do
  let quote ← char
  require (quote == '"' || quote == '\'')
  scan fun s pos => s.stringEnd quote (pos + 1)
  return .leaf "string"

def numberLiteral : Parse Tree := do
  scan fun s pos => s.numberEnd pos
  return .leaf "number"

def memberName : Parse Tree := do
  if ← optMark "#" then
    discard anyWord
    return .leaf "private_property_identifier"
  else
    discard anyWord
    return .leaf "property_identifier"

def sequence (read : Reader) : Parse Tree := do
  let first ← read.item
  let rest ← many do mark ","; read.item
  return if rest.isEmpty then first else .mk "sequence_expression" (first :: rest)

def propertyName (read : Reader) : Parse Tree := do
  let c ← char
  if c == '[' then
    mark "["
    let name ← sequence read
    mark "]"
    return .mk "computed_property_name" [name]
  else if c == '"' || c == '\'' then
    stringLiteral
  else if c.isDigit || c == '.' then
    numberLiteral
  else
    memberName

/--
Reads the words that modify the declaration of a name behind them. A word that is not followed by a name
is the name itself.
-/
def modifiers (words : List String) : Parse (List String) :=
  many do
    let found ← anyWord
    require (words.contains found)
    let c ← char
    require (startsName c || c == '*' || c == '\x7b')
    return found

/--
Reads a template. Substitutions are read with `inner`.
-/
def template (kind : String) (inner : Parse Tree) : Parse Tree := do
  require ((← char) == '\x60')
  advanceRaw 1
  let parts ← many do
    let c ← char
    if c == '$' && (← charAfter 1) == '\x7b' then
      advance 2
      let part ← inner
      require ((← char) == '\x7d')
      advanceRaw 1
      return some (Tree.mk "template_substitution" [part])
    else
      require (c != '\x60' && !(← atEnd))
      advanceRaw (if c == '\\' then 2 else 1)
      return none
  mark "\x60"
  return .mk kind (parts.filterMap id)

end TypeScript

end ParadigmScan
