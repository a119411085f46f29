import ParadigmScan.TypeScript.Patterns

/-!
This module contains the grammar of classes and their members.
-/

namespace ParadigmScan

namespace TypeScript

open Parse

def memberModifiers : List String :=
  ["public", "private", "protected", "static", "abstract", "override", "readonly", "declare",
    "async", "get", "set", "accessor", "export", "const"]

def staticBlock (read : Reader) : Parse Tree := do
  word "static"
  let body ← block read
  return .mk "class_static_block" [body]

/--
Reads a method or a field. A method without a body is a signature.
-/
def classMember (read : Reader) : Parse Tree := do
  let modifiers ← modifiers memberModifiers
  indexSignature read <|> do
    discard <| optMark "*"
    let name ← propertyName read
    discard (optMark "?")
    if (← char) == '!' then advance 1
    let c ← char
    if c == '(' || c == '<' then
      let signature ← signature read
      match ← optBlock read with
      | some body => return .mk "method_definition" (name :: signature ++ [body])
      | none =>
        let kind :=
          if modifiers.contains "abstract" then "abstract_method_signature" else "method_signature"
        return .mk kind (name :: signature)
    else
      let type ← typeAnnotation read
      let value ← initializer read {}
      return .mk "public_field_definition" (name :: type ++ value)

/--
Reads the members of a class, with their braces. The decorators of members stand beside the members.
-/
def classBody (read : Reader) : Parse Tree := do
  mark "\x7b"
  let members ← many do
    markupComments
    let c ← char
    if c == ';' || c == ',' then
      advance 1
      return []
    else if c == '@' then
      return [← decorator read]
    else
      return [← staticBlock read <|> classMember read]
  markupComments
  mark "\x7d"
  return .mk "class_body" members.flatten

def heritage (read : Reader) : Parse (List Tree) := do
  let extended ← option do
    word "extends"
    let types ← commaList (read .superclass)
    return Tree.mk "extends_clause" types
  let implemented ← option do
    word "implements"
    let types ← commaList read.anyType
    return Tree.mk "implements_clause" types
  return extended.toList ++ implemented.toList

/--
Reads a class, from its first word on. The decorators before it belong to it.
-/
def classDeclaration (read : Reader) (kind : String) (decorators : List Tree) : Parse Tree := do
  let abstract ← optWord "abstract"
  word "class"
  let named := !(["extends", "implements", ""].contains (← peekWord))
  if named then discard anyWord
  let generic ← optTypeParameters read
  let heritage ← heritage read
  let body ← classBody read
  let kind := if abstract then "abstract_class_declaration" else kind
  return .mk kind (decorators ++ generic ++ heritage ++ [body])

def startsClass : Parse Bool :=
  ahead (word "class" <|> do word "abstract"; word "class")

end TypeScript

end ParadigmScan
