import ParadigmScan.TypeScript.Expressions

/-!
This module contains the grammar of statements and declarations. Many of the words that start a
declaration are names as well; what stands behind such a word decides.
-/

namespace ParadigmScan

namespace TypeScript

open Parse

def expressions (read : Reader) (place : Place) : Parse Tree := do
  let first ← read (.expression place)
  let rest ← many do
    mark ","
    read (.expression place)
  return if rest.isEmpty then first else .mk "sequence_expression" (first :: rest)

def condition (read : Reader) : Parse Tree := do
  mark "("
  let inner ← sequence read
  mark ")"
  return .mk "parenthesized_expression" [inner]

def wordBefore (text : String) (next : Parse α) : Parse Bool :=
  ahead do
    word text
    require (!(← startsLine))
    next

def variableWord : Parse Unit :=
  word "var" <|> word "const" <|>
  (do
    word "let"
    let c ← char
    require (isWordStart c || c == '[' || c == '\x7b' || c == '\\')
    require (!(["in", "instanceof"].contains (← peekWord)))) <|>
  (do
    discard <| optWord "await"
    word "using"
    require (!(← startsLine))
    let name ← anyWord
    require (!(["in", "of", "instanceof", "as", "satisfies"].contains name) || (← looksAt "=")))

def declarators (read : Reader) (place : Place) : Parse (List Tree) :=
  commaList do
    let pattern ← read .pattern
    if (← char) == '!' && !(← startsLine) then advance 1
    let type ← typeAnnotation read
    let value ← initializer read place
    return .mk "variable_declarator" (pattern :: type ++ value)

def variableStart : Parse Unit := do
  require (← ahead variableWord)
  discard <| optWord "await"
  discard anyWord

def variableDeclaration (read : Reader) : Parse Tree := do
  variableStart
  let declared ← declarators read {}
  statementEnd
  return .mk "lexical_declaration" declared

def loopRange (read : Reader) : Parse (List Tree) := do
  let first ←
    if (← char) == ';' then
      pure []
    else
      (do
        variableStart
        declarators read { noIn := true, lineEnds := false }) <|>
      (do return [← expressions read { noIn := true, lineEnds := false }])
  if ← optMark ";" then
    let second ← option (sequence read)
    mark ";"
    let third ← option (sequence read)
    return first ++ second.toList ++ third.toList
  else
    word "of" <|> word "in"
    return first ++ [← sequence read]

def forStatement (read : Reader) : Parse Tree := do
  word "for"
  discard <| optWord "await"
  mark "("
  let range ← loopRange read
  mark ")"
  let body ← read .statement
  return .mk "for_statement" (range ++ [body])

def ifStatement (read : Reader) : Parse Tree := do
  word "if"
  let condition ← condition read
  let positive ← read .statement
  let negative ← if ← optWord "else" then pure [← read .statement] else pure []
  return .mk "if_statement" (condition :: positive :: negative)

/--
Reads a case of a choice between many. A colon behind parentheses ends the value if it cannot be part of
it.
-/
def switchCase (read : Reader) : Parse Tree := do
  markupComments
  let value ←
    if ← optWord "default" then
      mark ":"
      pure []
    else
      word "case"
      let value (place : Place) : Parse (List Tree) := do
        let value ← expressions read place
        mark ":"
        return [value]
      value .bracketed <|> value { Place.bracketed with noResultType := true }
  let body ← many (read .statement)
  return .mk "switch_case" (value ++ body)

def switchStatement (read : Reader) : Parse Tree := do
  word "switch"
  let value ← condition read
  mark "\x7b"
  let cases ← many (switchCase read)
  markupComments
  mark "\x7d"
  return .mk "switch_statement" (value :: cases)

def tryStatement (read : Reader) : Parse Tree := do
  word "try"
  let body ← block read
  let handler ← option do
    word "catch"
    let parameter ←
      if ← optMark "(" then
        let pattern ← read .pattern
        let type ← typeAnnotation read
        mark ")"
        pure (pattern :: type)
      else
        pure []
    let body ← block read
    return Tree.mk "catch_clause" (parameter ++ [body])
  let finalizer ← option do
    word "finally"
    return Tree.mk "finally_clause" [← block read]
  return .mk "try_statement" (body :: handler.toList ++ finalizer.toList)

def doStatement (read : Reader) : Parse Tree := do
  word "do"
  let body ← read .statement
  word "while"
  let condition ← condition read
  statementEnd
  return .mk "do_statement" [body, condition]

def leaveStatement (read : Reader) (text : String) : Parse Tree := do
  word text
  let value ← if ← startsLine then pure none else option (expressions read {})
  statementEnd
  return .mk (text ++ "_statement") value.toList

def guardedStatement (read : Reader) (text : String) : Parse Tree := do
  word text
  let condition ← condition read
  let body ← read .statement
  return .mk (text ++ "_statement") [condition, body]

def enumDeclaration (read : Reader) : Parse Tree := do
  discard <| optWord "const"
  word "enum"
  discard anyWord
  mark "\x7b"
  let members ← commaList do
    let name ← propertyName read
    let value ← initializer read .bracketed
    return .mk "enum_assignment" (name :: value)
  mark "\x7d"
  return .mk "enum_declaration" members

def interfaceDeclaration (read : Reader) : Parse Tree := do
  word "interface"
  discard anyWord
  let generic ← optTypeParameters read
  let extended ← if ← optWord "extends" then commaList read.anyType else pure []
  let body ← typeMembers "interface_body" read
  return .mk "interface_declaration" (generic ++ extended ++ [body])

def typeAlias (read : Reader) : Parse Tree := do
  word "type"
  discard anyWord
  let generic ← optTypeParameters read
  mark "="
  let type ← read.anyType
  statementEnd
  return .mk "type_alias_declaration" (generic ++ [type])

def moduleDeclaration (read : Reader) : Parse Tree := do
  let found ← anyWord
  if found == "global" then
    return .mk "module" [← block read]
  else
    let name ← stringLiteral <|> qualifiedName
    match ← optBlock read with
    | some body => return .mk "module" [name, body]
    | none =>
      statementEnd
      return .mk "module" [name]

def namedBindings : Parse Tree := do
  mark "\x7b"
  let names ← commaList do
    discard <| many ((discard anyWord) <|> (discard stringLiteral))
    return .leaf "import_specifier"
  mark "\x7d"
  return .mk "named_imports" names

def fromClause (read : Reader) : Parse (List Tree) := do
  let name ← stringLiteral
  let attributes ← option do
    require (!(← startsLine))
    word "with" <|> word "assert"
    objectLiteral read
  return name :: attributes.toList

def importStatement (read : Reader) : Parse Tree := do
  word "import"
  let bare : Parse (List Tree) := fromClause read
  let equation (modified : Bool) : Parse (List Tree) := do
    if modified then word "type"
    discard anyWord
    mark "="
    if ← ahead (do word "require"; mark "(") then
      word "require"
      return [← callArguments read]
    else
      return [← qualifiedName]
  let clause : Parse Unit := do
    let namespaceImport : Parse Unit := do
      mark "*"
      word "as"
      discard anyWord
    let rest : Parse Unit := namespaceImport <|> discard namedBindings
    rest <|> do
      discard anyWord
      if ← optMark "," then rest
  let origin (modified : Bool) : Parse (List Tree) := do
    if modified then word "type" <|> word "typeof" <|> word "defer" <|> word "source"
    clause
    word "from"
    fromClause read
  let parts ← bare <|> equation false <|> equation true <|> origin false <|> origin true
  statementEnd
  return .mk "import_statement" parts

def startsModule : Parse Bool :=
  wordBefore "namespace" anyWord <||>
  wordBefore "module" (discard anyWord <|> discard stringLiteral) <||>
  wordBefore "global" (mark "\x7b")

def declaration (read : Reader) (decorators : List Tree) : Parse Tree := do
  if ← startsFunction then
    functionDeclaration read
  else if (← char) == '@' || (← startsClass) then
    let own ← many (decorator read)
    classDeclaration read "class_declaration" (decorators ++ own)
  else if ← wordBefore "enum" anyWord <||> ahead (do word "const"; word "enum") then
    enumDeclaration read
  else if ← wordBefore "interface" anyWord then
    interfaceDeclaration read
  else if ← ahead (do word "type"; discard anyWord; mark "=" <|> mark "<") then
    typeAlias read
  else if ← startsModule then
    moduleDeclaration read
  else if ← ahead variableWord then
    variableDeclaration read
  else
    fail

def ambientDeclaration (read : Reader) : Parse Tree := do
  word "declare"
  require (!(← startsLine))
  let inner ← declaration read [] <|> importStatement read
  return .mk "ambient_declaration" [inner]

def defaultExport (read : Reader) : Parse Tree := do
  word "default"
  let declared ← option do
    require (!(← ahead variableWord))
    declaration read []
  match declared with
  | some tree => return tree
  | none =>
    let value ← expressions read {}
    statementEnd
    return value

def exportStatement (read : Reader) (decorators : List Tree) : Parse Tree := do
  word "export"
  let everything : Parse (List Tree) := do
    discard <| optWord "type"
    mark "*"
    if ← optWord "as" then discard (discard anyWord <|> discard stringLiteral)
    word "from"
    fromClause read
  let names : Parse (List Tree) := do
    discard <| optWord "type"
    let names ← namedBindings
    if ← optWord "from" then
      return names :: (← fromClause read)
    else
      return [names]
  let namespaceName : Parse (List Tree) := do
    word "as"
    word "namespace"
    discard anyWord
    return []
  let assigned : Parse (List Tree) := do
    mark "="
    return [← expressions read {}]
  let declared : Parse (List Tree) := do
    return [← defaultExport read <|> declaration read [] <|> ambientDeclaration read <|>
      importStatement read]
  let parts ← everything <|> names <|> namespaceName <|> assigned <|> declared
  statementEnd
  return .mk "export_statement" (decorators ++ parts)

def expressionStatement (read : Reader) : Parse Tree := do
  let value ← expressions read {}
  statementEnd
  return .mk "expression_statement" [value]

def labelledStatement (read : Reader) : Parse Tree := do
  discard anyWord
  mark ":"
  let body ← read .statement
  return .mk "labeled_statement" [body]

def wordStatement (read : Reader) (found : String) : Parse Tree :=
  match found with
  | "if" => ifStatement read
  | "for" => forStatement read
  | "while" => guardedStatement read "while"
  | "with" => guardedStatement read "with"
  | "do" => doStatement read
  | "switch" => switchStatement read
  | "try" => tryStatement read
  | "return" => leaveStatement read "return"
  | "throw" => leaveStatement read "throw"
  | "break" => leaveStatement read "break"
  | "continue" => leaveStatement read "continue"
  | "debugger" => leaveStatement read "debugger"
  | "export" => exportStatement read []
  | _ => fail

def statement (read : Reader) : Parse Tree := do
  markupComments
  let c ← char
  if c == '\x7b' then
    let body ← block read
    statementEnd
    return body
  else if c == ';' then
    mark ";"
    return .leaf "empty_statement"
  else if c == '@' then
    let decorators ← many (decorator read)
    exportStatement read decorators <|> declaration read decorators
  else if isWordStart c || c == '\\' then
    let found ← peekWord
    require (!reservedWords.contains found)
    wordStatement read found <|>
    (do
      require (← ahead (do discard anyWord; mark ":"))
      labelledStatement read) <|>
    declaration read [] <|>
    (do
      require (← wordBefore "declare" anyWord)
      ambientDeclaration read) <|>
    (do
      require (found == "import" && !(← ahead (do discard anyWord; mark "(" <|> mark ".")))
      importStatement read) <|>
    expressionStatement read
  else
    expressionStatement read

end TypeScript

end ParadigmScan
