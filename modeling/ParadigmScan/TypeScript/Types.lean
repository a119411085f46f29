import ParadigmScan.TypeScript.Grammar

/-!
This module contains the grammar of types, and of the parameter lists that function types share with
functions.
-/

namespace ParadigmScan

namespace TypeScript

open Parse

def typeAnnotation (read : Reader) : Parse (List Tree) := do
  if ← optMark ":" then
    let type ← read.anyType
    return [.mk "type_annotation" [type]]
  else
    return []

def typeArguments (read : Reader) : Parse Tree := do
  mark "<"
  let arguments ← commaList read.anyType
  mark ">"
  return .mk "type_arguments" arguments

def typeParameters (read : Reader) : Parse Tree := do
  mark "<"
  let parameters ← commaList do
    discard <| modifiers ["const", "in", "out"]
    discard anyWord
    let bound ←
      if (← peekWord) == "extends" then
        word "extends"
        pure [← read.anyType]
      else
        pure []
    let default ← if ← optMark "=" then pure [← read.anyType] else pure []
    return .mk "type_parameter" (.leaf "type_identifier" :: bound ++ default)
  mark ">"
  return .mk "type_parameters" parameters

def optTypeParameters (read : Reader) : Parse (List Tree) := do
  if (← char) == '<' then return [← typeParameters read] else return []

def assigns : Parse Bool := do
  return (← char) == '=' && !(['=', '>'].contains (← charAfter 1))

def initializer (read : Reader) (place : Place) : Parse (List Tree) := do
  if ← assigns then
    mark "="
    return [← read (.expression place)]
  else
    return []

def callArguments (read : Reader) : Parse Tree := do
  mark "("
  let arguments ← commaList do
    if ← optMark "..." then
      return .mk "spread_element" [← read.item]
    else
      read.item
  mark ")"
  return .mk "arguments" arguments

def decorator (read : Reader) : Parse Tree := do
  mark "@"
  let start ←
    if ← optMark "(" then
      let inner ← sequence read
      mark ")"
      pure (Tree.mk "parenthesized_expression" [inner])
    else
      discard anyWord
      pure (Tree.leaf "identifier")
  let value ← extend start fun target => do
    let c ← char
    if c == '.' then
      mark "."
      return .mk "member_expression" [target, ← memberName]
    else if c == '(' then
      return .mk "call_expression" [target, ← callArguments read]
    else
      let arguments ← typeArguments read
      if (← char) == '(' then
        return .mk "call_expression" [target, arguments, ← callArguments read]
      else
        return .mk "instantiation_expression" [target, arguments]
  return .mk "decorator" [value]

def parameterModifiers : List String :=
  ["public", "private", "protected", "readonly", "override"]

def parameterHead (read : Reader) : Parse (List Tree) := do
  let decorators ← many (decorator read)
  discard <| modifiers parameterModifiers
  let rest ← optMark "..."
  let name ← read .pattern
  let name := if rest then Tree.mk "rest_pattern" [name] else name
  discard <| optMark "?"
  let type ← typeAnnotation read
  return decorators ++ name :: type

def parameter (read : Reader) : Parse Tree := do
  let head ← parameterHead read
  let value ← initializer read .bracketed
  return .mk "required_parameter" (head ++ value)

def parameters (read : Reader) : Parse Tree := do
  mark "("
  let parameters ← commaList (parameter read)
  mark ")"
  return .mk "formal_parameters" parameters

def resultType (read : Reader) : Parse Tree := do
  let assertion : Parse Tree := do
    word "asserts"
    require (!(← startsLine))
    discard anyWord
    let types ← if ← optWord "is" then pure [← read.anyType] else pure []
    return .mk "asserts" types
  let predicate : Parse Tree := do
    discard anyWord
    require (!(← startsLine))
    word "is"
    let type ← read.anyType
    return .mk "type_predicate" [type]
  predicate <|> assertion <|> read.anyType

def resultAnnotation (read : Reader) : Parse (List Tree) := do
  if ← optMark ":" then return [.mk "type_annotation" [← resultType read]] else return []

def signature (read : Reader) : Parse (List Tree) := do
  let generic ← optTypeParameters read
  let parameters ← parameters read
  let result ← resultAnnotation read
  return generic ++ parameters :: result

def functionType (read : Reader) : Parse Tree := do
  discard <| optWord "abstract"
  let new ← optWord "new"
  let generic ← optTypeParameters read
  let parameters ← parameters read
  mark "=>"
  let result ← resultType read
  return .mk (if new then "constructor_type" else "function_type") (generic ++ [parameters, result])

def indexSignature (read : Reader) : Parse Tree := do
  mark "["
  discard anyWord
  let types ←
    if ← optMark ":" then
      pure [← read.anyType]
    else
      word "in"
      let keys ← read.anyType
      let renamed ← if ← optWord "as" then pure [← read.anyType] else pure []
      pure (keys :: renamed)
  mark "]"
  discard <| optMark "-?"
  discard <| optMark "+?"
  discard <| optMark "?"
  let type ← resultAnnotation read
  return .mk "index_signature" (types ++ type)

def typeMember (read : Reader) : Parse Tree := do
  let accessors ← (do
    mark "-" <|> mark "+"
    return [← anyWord]) <|>
    modifiers ["readonly", "get", "set", "static", "public", "private", "protected", "override",
      "async", "abstract", "export", "declare"]
  indexSignature read <|>
  (do
    require accessors.isEmpty
    let new ← optWord "new"
    let c ← char
    require (c == '(' || c == '<')
    return .mk (if new then "construct_signature" else "call_signature") (← signature read)) <|>
  (do
    let name ← propertyName read
    discard <| optMark "?"
    let c ← char
    if c == '(' || c == '<' then
      return .mk "method_signature" (name :: (← signature read))
    else
      return .mk "property_signature" (name :: (← typeAnnotation read)))

def typeMembers (kind : String) (read : Reader) : Parse Tree := do
  mark "\x7b"
  discard <| optMark "|"
  let members ← many do
    if (← optMark ";") || (← optMark ",") then
      return []
    else
      return [← typeMember read]
  discard <| optMark "|"
  mark "\x7d"
  return .mk kind members.flatten

def tupleElement (read : Reader) : Parse Tree := do
  let rest ← optMark "..."
  let labelled : Parse Tree := do
    discard anyWord
    discard <| optMark "?"
    mark ":"
    let type ← read.anyType
    return .mk "required_parameter" [type]
  let plain : Parse Tree := do
    let type ← read.anyType
    return if ← optMark "?" then .mk "optional_type" [type] else type
  let element ← labelled <|> plain
  return if rest then .mk "rest_type" [element] else element

def qualifiedName : Parse Tree := do
  discard anyWord
  let rest ← many do
    mark "."
    memberName
  return if rest.isEmpty then .leaf "type_identifier" else .mk "nested_type_identifier" rest

def importType (read : Reader) : Parse Tree := do
  word "import"
  let arguments ← callArguments read
  let names ← many do
    mark "."
    memberName
  return .mk "nested_type_identifier" (arguments :: names)

def trailingArguments (read : Reader) (type : Tree) : Parse Tree := do
  if (← char) == '<' && !(← startsLine) then
    return .mk "generic_type" [type, ← typeArguments read]
  else
    return type

def primaryType (read : Reader) : Parse Tree := do
  let c ← char
  if c == '\x7b' then
    typeMembers "object_type" read
  else if c == '[' then
    mark "["
    let elements ← commaList (tupleElement read)
    mark "]"
    return .mk "tuple_type" elements
  else if c == '(' then
    mark "("
    let inner ← read.anyType
    mark ")"
    return .mk "parenthesized_type" [inner]
  else if c == '"' || c == '\'' then
    return .mk "literal_type" [← stringLiteral]
  else if c == '\x60' then
    template "template_literal_type" read.anyType
  else if c == '-' || c == '+' then
    advance 1
    return .mk "literal_type" [← numberLiteral]
  else if c.isDigit || c == '.' then
    return .mk "literal_type" [← numberLiteral]
  else if c == '*' then
    mark "*"
    return .leaf "existential_type"
  else if ← ahead (word "typeof") then
    word "typeof"
    let name ← importType read <|> qualifiedName
    return .mk "type_query" [← trailingArguments read name]
  else
    let name ← (do
      require (← ahead (do word "import"; mark "("))
      importType read) <|> qualifiedName
    trailingArguments read name

def postfixType (read : Reader) : Parse Tree := do
  let type ← primaryType read
  extend type fun type => do
    require (!(← startsLine))
    mark "["
    if ← optMark "]" then
      return .mk "array_type" [type]
    else
      let index ← read.anyType
      mark "]"
      return .mk "lookup_type" [type, index]

def typeOperator : Parse Unit := do
  let found ← anyWord
  require (["keyof", "unique", "readonly"].contains found)
  let c ← char
  require (isWordStart c || ['\x7b', '(', '[', '"', '\'', '\x60', '<', '\\'].contains c)
  require (!(← startsLine))

def typeOperand (read : Reader) (noCondition : Bool) : Parse Tree := do
  discard <| many (typeOperator <|> mark "?")
  let inferred : Parse Tree := do
    word "infer"
    discard anyWord
    let bound ← option do
      word "extends"
      let bound ← read (.type true)
      require (noCondition || (← char) != '?')
      return bound
    return .mk "infer_type" (.leaf "type_identifier" :: bound.toList)
  let c ← char
  let startsFunction ← ahead (word "new" <|> do word "abstract"; word "new")
  if c == '<' || startsFunction then
    functionType read
  else if c == '(' then
    functionType read <|> postfixType read
  else if c == 'i' then
    inferred <|> postfixType read
  else
    postfixType read

def typeExpression (read : Reader) (noCondition : Bool) : Parse Tree := do
  let operator : Parse Unit := mark "|" <|> mark "&"
  discard (option operator)
  let first ← typeOperand read noCondition
  let rest ← many do
    operator
    typeOperand read noCondition
  let type := if rest.isEmpty then first else .mk "union_type" (first :: rest)
  if noCondition then
    return type
  else
    let condition ← option do
      word "extends"
      let bound ← read (.type true)
      mark "?"
      let positive ← read.anyType
      mark ":"
      let negative ← read.anyType
      return [bound, positive, negative]
    match condition with
    | some parts => return .mk "conditional_type" (type :: parts)
    | none => return type

end TypeScript

end ParadigmScan
