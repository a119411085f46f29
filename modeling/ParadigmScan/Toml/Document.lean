import ParadigmScan.Toml.Values

/-!
This module contains whole TOML documents: statements that give keys values or open tables, and the rules
about which tables may be opened or changed again.
-/

namespace ParadigmScan

namespace Toml

/--
A document read up to some statement: its contents, what is known about its keys, what will be known when
the next table is opened, and the key of the table that is open.
-/
structure State where
  contents : Table Value := []
  marks : List Mark := []
  pending : List Key := []
  header : Key := []
  deriving Inhabited

def openTable (state : State) : Parse State := do
  advance 1
  skipBlanks
  let key ← key
  if hasFlag state.marks key .opened || hasFlag state.marks key .frozen then
    fail (.declaredTwice key)
  let some contents := alter true some key state.contents | fail .overwritten
  if !(← looksAt "]") then fail .unclosedTable
  advance 1
  let marks := { key, flag := .opened, below := false } :: state.marks
  return { state with contents, marks, header := key }

/--
Adds a table to an array of tables and opens it. What was known about the keys below is forgotten.
-/
def openArrayTable (state : State) : Parse State := do
  advance 2
  skipBlanks
  let key ← key
  if hasFlag state.marks key .frozen then fail (.immutable key)
  let last := key.getLast?.getD ""
  let append (table : Table Value) : Option (Table Value) :=
    match table.lookup last with
    | none => some (table ++ [(last, .list [.table []])])
    | some (.list items) => some (table.set last (.list (items ++ [.table []])))
    | some _ => none
  let some contents := alter true append key.dropLast state.contents | fail .overwritten
  if !(← looksAt "]]") then fail .unclosedArrayTable
  advance 2
  let marks := state.marks.filter fun mark => !key.isPrefixOf mark.key
  return { state with
    contents
    marks := { key, flag := .opened, below := false } :: marks
    header := key }

def innerKeys (header key : Key) : List Key :=
  (List.range (key.length - 1)).map fun i => header ++ key.take (i + 1)

def assign (state : State) (fuel : Nat) : Parse State := do
  let (key, item) ← keyValue fuel
  let inner := innerKeys state.header key
  if let some opened := inner.find? (hasFlag state.marks · .opened) then fail (.redefined opened)
  let parent := state.header ++ key.dropLast
  if hasFlag state.marks parent .frozen then fail (.immutable parent)
  let last := key.getLast?.getD ""
  let add (table : Table Value) : Option (Table Value) :=
    if (table.lookup last).isSome then none else some (table ++ [(last, item)])
  let some contents := alter true add parent state.contents | fail .overwritten
  let whole : Key := state.header ++ key
  let marks :=
    if isContainer item then { key := whole, flag := .frozen, below := true } :: state.marks
    else state.marks
  return { state with contents, marks, pending := inner ++ state.pending }

def settlePending (state : State) : State :=
  { state with
    marks := state.pending.map (fun key => { key, flag := .opened, below := false }) ++ state.marks
    pending := [] }

def statements : Nat → State → Parse State
  | 0, state => return state
  | fuel + 1, state => do
    skipBlanks
    match ← peek with
    | none => return state
    | some '\n' =>
      advance 1
      statements fuel state
    | some c =>
      let state ←
        if isKeyChar c || c == '"' || c == '\'' then
          assign state (2 * (← get).length + 2)
        else if c == '[' then
          let state := settlePending state
          if ← looksAt "[[" then openArrayTable state else openTable state
        else if c != '#' then
          fail .invalidStatement
        else
          pure state
      skipBlanks
      skipComment
      match ← peek with
      | none => return state
      | some '\n' =>
        advance 1
        statements fuel state
      | some _ => fail .expectedLineEnd

def unifyLines : List Char → List Char
  | '\r' :: '\n' :: rest => '\n' :: unifyLines rest
  | c :: rest => c :: unifyLines rest
  | [] => []

def placeText (document rest : List Char) : String :=
  if rest.isEmpty then
    "end of document"
  else
    let before := document.take (document.length - rest.length)
    let line := before.count '\n' + 1
    let column := (before.reverse.takeWhile (· != '\n')).length + 1
    s!"line {line}, column {column}"

/--
A document that cannot be read: what is wrong with it and where, or an integer with too many digits.
-/
inductive DocumentError where
  | malformed (message : String)
  | longInteger (digits : Nat)
  deriving DecidableEq, Repr, Inhabited

def parse (text : List Char) : Except DocumentError (Table Value) :=
  let document := unifyLines text
  match (statements (document.length + 1) {}).run document with
  | .ok (state, _) => .ok state.contents
  | .error (.malformed reason rest) =>
    .error (.malformed s!"{reason.message} (at {placeText document rest})")
  | .error (.longInteger digits) => .error (.longInteger digits)

end Toml

end ParadigmScan
