import ParadigmScan.TypeScript.Types

/-!
This module contains the grammar of the patterns that bind names, and of the bodies of functions.
-/

namespace ParadigmScan

namespace TypeScript

open Parse

def patternWithDefault (read : Reader) : Parse Tree := do
  let pattern ← read .pattern
  let value ← initializer read .bracketed
  return if value.isEmpty then pattern else .mk "assignment_pattern" (pattern :: value)

def patternEntry (read : Reader) : Parse Tree := do
  if ← optMark "..." then
    return .mk "rest_pattern" [← read .pattern]
  else
    let name ← propertyName read
    if ← optMark ":" then
      return .mk "pair_pattern" [name, ← patternWithDefault read]
    else
      let value ← initializer read .bracketed
      return if value.isEmpty then .leaf "shorthand_property_identifier_pattern"
        else .mk "object_assignment_pattern" (name :: value)

def bindingPattern (read : Reader) : Parse Tree := do
  if ← optMark "\x7b" then
    let entries ← commaList (patternEntry read)
    mark "\x7d"
    return .mk "object_pattern" entries
  else if ← optMark "[" then
    let items ← many do
      if ← optMark "," then
        return []
      else if ← optMark "..." then
        return [.mk "rest_pattern" [← read .pattern]]
      else
        return [← patternWithDefault read]
    mark "]"
    return .mk "array_pattern" items.flatten
  else
    discard anyWord
    return .leaf "identifier"

def block (read : Reader) : Parse Tree := do
  mark "\x7b"
  let statements ← many (read .statement)
  markupComments
  mark "\x7d"
  return .mk "statement_block" statements

def optBlock (read : Reader) : Parse (Option Tree) := do
  if (← char) == '\x7b' then return some (← block read) else return none

def functionExpression (read : Reader) : Parse Tree := do
  discard <| optWord "async"
  word "function"
  let generator ← optMark "*"
  discard (option anyWord)
  let signature ← signature read
  let body ← block read
  let kind := if generator then "generator_function" else "function_expression"
  return .mk kind (signature ++ [body])

def statementEnd : Parse Unit := discard <| optMark ";"

/--
Reads the declaration of a function, from its first word on. Without a body it is only a signature.
-/
def functionDeclaration (read : Reader) : Parse Tree := do
  discard <| optWord "async"
  word "function"
  let generator ← optMark "*"
  discard (option anyWord)
  let signature ← signature read
  match ← optBlock read with
  | some body =>
    let kind := if generator then "generator_function_declaration" else "function_declaration"
    return .mk kind (signature ++ [body])
  | none =>
    statementEnd
    return .mk "function_signature" signature

def startsFunction : Parse Bool :=
  ahead (word "function" <|> do
    word "async"
    require (!(← startsLine))
    word "function")

end TypeScript

end ParadigmScan
