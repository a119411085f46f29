import ParadigmScan.TypeScript.Types

/-!
This module contains the grammar of markup elements in expressions. The text between two tags is not
divided into tokens: blanks and comment marks in it are part of the text.
-/

namespace ParadigmScan

namespace TypeScript

open Parse

/--
Reads the bracket that ends a tag. The text behind it is not looked at.
-/
def tagEnd : Parse Unit := do
  require ((← char) == '>')
  advanceRaw 1

def tagName : Parse Unit := do
  require (isWordStart (← char))
  scan fun s pos => s.skipWhile (fun c => isWordChar c || c == '-' || c == '.' || c == ':') pos

def bracedExpression (read : Reader) : Parse (List Tree) := do
  mark "\x7b"
  let inner ←
    if (← char) == '\x7d' then
      pure []
    else if ← optMark "..." then
      pure [.mk "spread_element" [← read.item]]
    else
      pure [← sequence read]
  require ((← char) == '\x7d')
  return inner

def attributeString : Parse Tree := do
  let quote ← char
  require (quote == '"' || quote == '\'')
  scan fun s pos => s.skipWhile (· != quote) (pos + 1) + 1
  return .leaf "string"

def tagAttribute (read : Reader) : Parse Tree := do
  if (← char) == '\x7b' then
    let inner ← bracedExpression read
    mark "\x7d"
    return .mk "jsx_expression" inner
  else
    tagName
    if ← optMark "=" then
      let c ← char
      if c == '\x7b' then
        let inner ← bracedExpression read
        mark "\x7d"
        return .mk "jsx_attribute" inner
      else if c == '<' then
        let element ← read .element
        settle
        return .mk "jsx_attribute" [element]
      else
        return .mk "jsx_attribute" [← attributeString]
    else
      return .leaf "jsx_attribute"

def elementChildren (read : Reader) : Parse (List Tree) := do
  let children ← many do
    let c ← char
    if c == '\x7b' then
      let inner ← bracedExpression read
      advanceRaw 1
      return [Tree.mk "jsx_expression" inner]
    else if c == '<' then
      require (!(← ahead do mark "<"; mark "/"))
      return [← read .element]
    else
      require (!(← atEnd))
      advanceRaw 1
      return []
  return children.flatten

/--
Reads an element. The text behind it is not looked at.
-/
def markupElement (read : Reader) : Parse Tree := do
  mark "<"
  if (← char) == '>' then
    tagEnd
    let children ← elementChildren read
    mark "<"
    mark "/"
    tagEnd
    return .mk "jsx_element" children
  else
    tagName
    let types ← option (typeArguments read)
    let attributes ← many (tagAttribute read)
    let opening := types.toList ++ attributes
    if ← optMark "/" then
      tagEnd
      return .mk "jsx_self_closing_element" opening
    else
      tagEnd
      let children ← elementChildren read
      mark "<"
      mark "/"
      tagName
      tagEnd
      return .mk "jsx_element" (opening ++ children)

end TypeScript

end ParadigmScan
