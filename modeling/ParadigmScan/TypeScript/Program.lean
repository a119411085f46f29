import ParadigmScan.TypeScript.Statements

/-!
This module ties the recursive constructs of the grammar together and reads whole programs. Every text
has a syntax tree: where no statement can be read, one token is set aside as an error.
-/

namespace ParadigmScan

namespace TypeScript

open Parse

def construct (read : Reader) : Reader
  | .statement => statement read
  | .expression place => expression read place
  | .type noCondition => typeExpression read noCondition
  | .pattern => bindingPattern read
  | .element => markupElement read
  | .superclass => operand read {} true

def reader : Nat → Reader
  | 0 => fun _ => fail
  | depth + 1 => fun goal => construct (reader depth) goal

def skipToken : Parse Tree := do
  markupComments
  require (!(← atEnd))
  discard anyWord <|> advance 1
  return .leaf "ERROR"

def interpreterLine : Parse Unit := do
  if ← looksAt "#!" then scan fun s pos => s.lineEnd pos

def program (read : Reader) : Parse Tree := do
  settle
  interpreterLine
  let statements ← many (read .statement <|> skipToken)
  return .mk "program" statements

end TypeScript

/--
The syntax tree of a program text. Constructs are nested at most as deep as the text is long, so the
depth of the reader is never used up.
-/
def Tree.ofText (language : Language) (text : List Char) : Tree :=
  let source : TypeScript.Source := { chars := text.toArray, language }
  let depth := 4 * (source.size + 4)
  match TypeScript.program (TypeScript.reader depth) source { pos := 0, newline := true } with
  | some (tree, _) => tree
  | none => .leaf "ERROR"

end ParadigmScan
