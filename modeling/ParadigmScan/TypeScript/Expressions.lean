import ParadigmScan.TypeScript.Classes
import ParadigmScan.TypeScript.Elements

/-!
This module contains the grammar of expressions. Operators are read from left to right without regard
to their strength: how strongly they bind has no influence on which constructs an expression holds.
-/

namespace ParadigmScan

namespace TypeScript

open Parse

def arrowHead (read : Reader) (place : Place) : Parse (List Tree) := do
  let generic ← optTypeParameters read
  let parameters ← parameters read
  let result ← if place.noResultType then pure [] else resultAnnotation read
  mark "=>"
  return generic ++ parameters :: result

def arrowBody (read : Reader) (place : Place) (head : List Tree) : Parse Tree := do
  let body ← if (← char) == '\x7b' then block read else read (.expression place)
  return .mk "arrow_function" (head ++ [body])

/--
Reads what stands between two commas in parentheses, and tells whether it can be a parameter. Whatever
follows the sign that gives a value is read only once, for the value may hold parentheses again.
-/
def parameterOrExpression (read : Reader) : Parse (Bool × Tree) :=
  (do
    let head ← parameterHead read
    let c ← char
    require (c == ',' || c == ')' || (← assigns))
    let value ← initializer read .bracketed
    return (true, .mk "required_parameter" (head ++ value))) <|>
  (do
    let value ← read.item
    let type ← typeAnnotation read
    return (false, if type.isEmpty then value else .mk "parenthesized_expression" (value :: type)))

def parenthesized (read : Reader) (place : Place) : Parse Tree := do
  mark "("
  let items ← many do
    let item ← parameterOrExpression read
    require ((← optMark ",") || (← char) == ')')
    return item
  mark ")"
  let trees := items.map (·.2)
  let arrow ← option do
    require (items.all (·.1))
    let result ← if place.noResultType then pure [] else resultAnnotation read
    mark "=>"
    return Tree.mk "formal_parameters" trees :: result
  match arrow with
  | some head => arrowBody read place head
  | none =>
    require (!items.isEmpty)
    return .mk "parenthesized_expression" trees

def arrayLiteral (read : Reader) : Parse Tree := do
  mark "["
  let items ← many do
    if ← optMark "," then
      return []
    else if ← optMark "..." then
      return [.mk "spread_element" [← read.item]]
    else
      return [← read.item]
  mark "]"
  return .mk "array" items.flatten

def objectEntry (read : Reader) : Parse Tree := do
  markupComments
  if ← optMark "..." then
    return .mk "spread_element" [← read.item]
  else
    discard <| modifiers ["async", "get", "set", "static", "public", "private", "protected",
      "override", "readonly"]
    discard <| optMark "*"
    let name ← propertyName read
    discard <| optMark "?"
    let c ← char
    if c == '(' || c == '<' then
      let signature ← signature read
      let body ← block read
      return .mk "method_definition" (name :: signature ++ [body])
    else if ← optMark ":" then
      return .mk "pair" [name, ← read.item]
    else
      let value ← initializer read .bracketed
      return if value.isEmpty then .leaf "shorthand_property_identifier"
        else .mk "object_assignment_pattern" (name :: value)

def objectLiteral (read : Reader) : Parse Tree := do
  mark "\x7b"
  let entries ← commaList (objectEntry read)
  markupComments
  mark "\x7d"
  return .mk "object" entries

def regexLiteral : Parse Tree := do
  require ((← char) == '/')
  scan fun s pos => (s.regexEnd? (pos + 1)).getD pos
  return .leaf "regex"

def reservedWords : List String :=
  ["in", "instanceof", "else", "case", "default", "catch", "finally", "extends"]

def wordOperand (read : Reader) (place : Place) : Parse Tree := do
  if ← startsFunction then
    functionExpression read
  else if ← ahead (word "class") then
    classDeclaration read "class" []
  else
    let asyncHead : Parse (List Tree) := do
      word "async"
      require (!(← startsLine))
      let plain : Parse (List Tree) := do
        discard anyWord
        mark "=>"
        return [.leaf "identifier"]
      plain <|> arrowHead read place
    match ← option asyncHead with
    | some head => arrowBody read place head
    | none =>
      let found ← anyWord
      require (!reservedWords.contains found)
      if ← optMark "=>" then
        arrowBody read place [.leaf "identifier"]
      else
        return .leaf "identifier"

def primary (read : Reader) (place : Place) : Parse Tree := do
  let c ← char
  if c == '(' then
    parenthesized read place
  else if c == '[' then
    arrayLiteral read
  else if c == '\x7b' then
    objectLiteral read
  else if c == '"' || c == '\'' then
    stringLiteral
  else if c == '\x60' then
    template "template_string" (sequence read)
  else if c == '/' then
    regexLiteral
  else if c == '<' then
    match ← option (arrowHead read place) with
    | some head => arrowBody read place head
    | none =>
      require ((← language) == .tsx)
      let element ← read .element
      settle
      return element
  else if c == '@' then
    let decorators ← many (decorator read)
    classDeclaration read "class" decorators
  else if c == '#' then
    memberName
  else if c.isDigit || c == '.' then
    numberLiteral
  else
    wordOperand read place

def startsOperand (c : Char) : Bool :=
  isWordStart c || c.isDigit || "\\\"'\x60([\x7b!~+-</@#".contains c

/--
Reads an operator that stands before its operand. A type in brackets is one that checks nothing.
-/
def prefixOperator (read : Reader) (place : Place) : Parse (List Tree) := do
  let c ← char
  if "!~+-".contains c then
    advance 1
    return []
  else if c == '<' then
    require ((← language) == .typescript)
    require (!(← ahead (arrowHead read place)))
    mark "<"
    let type ← read.anyType
    mark ">"
    return [type]
  else
    let found ← anyWord
    let c ← char
    if ["typeof", "void", "delete", "await"].contains found then
      require (startsOperand c)
      return []
    else if found == "new" then
      require (c != '.')
      return []
    else
      require (found == "yield" && !(← startsLine))
      if ← optMark "*" then
        return []
      else
        require (startsOperand c)
        require (!reservedWords.contains (← peekWord))
        return []

def endsTypeArguments : Parse Bool := do
  let c ← char
  let reserved := ["in", "instanceof", "as", "satisfies"].contains (← peekWord)
  return c == '(' || c == '\x60' || (← startsLine) || reserved || !startsOperand c

def postfixOperator (read : Reader) (place : Place) (inHeritage : Bool) (target : Tree) :
    Parse Tree := do
  let c ← char
  if c == '.' then
    mark "."
    return .mk "member_expression" [target, ← memberName]
  else if c == '[' then
    mark "["
    let index ← sequence read
    mark "]"
    return .mk "subscript_expression" [target, index]
  else if c == '(' then
    return .mk "call_expression" [target, ← callArguments read]
  else if c == '\x60' then
    return .mk "call_expression" [target, ← template "template_string" (sequence read)]
  else if c == '?' then
    require ((← charAfter 1) == '.' && !(← charAfter 2).isDigit)
    mark "?."
    if ["(", "[", "\x60", "<"].contains (← char).toString then
      return target
    else
      return .mk "member_expression" [target, ← memberName]
  else if c == '<' then
    let arguments ← typeArguments read
    require (inHeritage || (← endsTypeArguments))
    return .mk "instantiation_expression" [target, arguments]
  else
    require (!(place.lineEnds && (← startsLine)))
    if c == '!' then
      require ((← charAfter 1) != '=')
      mark "!"
      return .mk "non_null_expression" [target]
    else
      mark "++" <|> mark "--"
      return .mk "update_expression" [target]

def operand (read : Reader) (place : Place) (inHeritage : Bool) : Parse Tree := do
  markupComments
  let operators ← many (prefixOperator read place)
  let start ← primary read place
  let value ← extend start (postfixOperator read place inHeritage)
  return if operators.isEmpty then value else .mk "unary_expression" (operators.flatten ++ [value])

/--
The operators between two operands. An operator stands before those that it starts with.
-/
def binaryOperators : List String :=
  [">>>=", "===", "!==", "**=", "<<=", ">>=", ">>>", "&&=", "||=", "??=", "==", "!=", "<=", ">=",
    "&&", "||", "??", "+=", "-=", "*=", "/=", "%=", "&=", "|=", "^=", "**", "<<", ">>", "<", ">",
    "+", "-", "*", "/", "%", "&", "|", "^", "="]

def binaryOperator (place : Place) : Parse Unit := do
  if isWordStart (← char) then
    let found ← anyWord
    require (found == "instanceof" || (found == "in" && !place.noIn))
  else
    let newline := place.lineEnds && (← startsLine)
    require (!(newline && ((← looksAt "++") || (← looksAt "--"))))
    require (!(← looksAt "=>"))
    match ← binaryOperators.findM? fun text => looksAt text with
    | some text => mark text
    | none => fail

/--
Reads the two branches of a choice. A colon behind parentheses in the first branch separates the
branches if it cannot be part of the first one.
-/
def branches (read : Reader) (place : Place) : Parse (List Tree) := do
  let first (place : Place) : Parse Tree := do
    let positive ← read (.expression place)
    mark ":"
    return positive
  let positive ← first .bracketed <|> first { Place.bracketed with noResultType := true }
  let negative ← read (.expression place)
  return [positive, negative]

def expressionRest (read : Reader) (place : Place) (left : Tree) : Parse Tree := do
  let c ← char
  if c == '?' && !(← looksAt "??") then
    mark "?"
    return .mk "ternary_expression" (left :: (← branches read place))
  else if c == 'a' || c == 's' then
    require (!(place.lineEnds && (← startsLine)))
    word "as" <|> word "satisfies"
    return .mk "as_expression" [left, ← read.anyType]
  else
    binaryOperator place
    return .mk "binary_expression" [left, ← operand read place false]

def expression (read : Reader) (place : Place) : Parse Tree := do
  let first ← operand read place false
  extend first (expressionRest read place)

end TypeScript

end ParadigmScan
