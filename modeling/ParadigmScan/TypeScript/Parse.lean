import ParadigmScan.Syntax.Tree
import ParadigmScan.TypeScript.Source

/-!
This module contains the readers that the grammar is written with. A reader looks at a program text
from a cursor on and either fails or returns what it read and the cursor behind it. A reader that failed
has read nothing, so alternatives can be tried one after the other.
-/

namespace ParadigmScan

namespace TypeScript

def Parse (α : Type) : Type := Source → Cursor → Option (α × Cursor)

namespace Parse

@[always_inline]
instance : Monad Parse where
  pure a := fun _ c => some (a, c)
  bind p f := fun s c =>
    match p s c with
    | some (a, c) => f a s c
    | none => none

instance : Inhabited (Parse α) := ⟨fun _ _ => none⟩

def fail : Parse α := fun _ _ => none

@[always_inline, inline]
def orElse (p : Parse α) (q : Unit → Parse α) : Parse α := fun s c =>
  match p s c with
  | some result => some result
  | none => q () s c

instance : OrElse (Parse α) := ⟨orElse⟩

@[always_inline, inline]
def option (p : Parse α) : Parse (Option α) := fun s c =>
  match p s c with
  | some (a, c) => some (some a, c)
  | none => some (none, c)

/--
Whether `p` could be read here. The cursor stays where it is.
-/
@[always_inline, inline]
def ahead (p : Parse α) : Parse Bool := fun s c =>
  some ((p s c).isSome, c)

@[inline]
def require (condition : Bool) : Parse Unit :=
  if condition then pure () else fail

/--
Reads `p` as often as it is there. A reader that succeeds without moving the cursor ends the list.
-/
def many (p : Parse α) : Parse (List α) := fun s c =>
  go s p (s.size - c.pos + 1) c []
where
  go (s : Source) (p : Parse α) : Nat → Cursor → List α → Option (List α × Cursor)
    | 0, c, read => some (read.reverse, c)
    | fuel + 1, c, read =>
      match p s c with
      | some (a, next) =>
        if c.pos < next.pos then go s p fuel next (a :: read) else some (read.reverse, c)
      | none => some (read.reverse, c)

def extend (start : Tree) (step : Tree → Parse Tree) : Parse Tree := fun s c =>
  go s (s.size - c.pos + 1) c start
where
  go (s : Source) : Nat → Cursor → Tree → Option (Tree × Cursor)
    | 0, c, tree => some (tree, c)
    | fuel + 1, c, tree =>
      match step tree s c with
      | some (longer, next) =>
        if c.pos < next.pos then go s fuel next longer else some (tree, c)
      | none => some (tree, c)

def language : Parse Language := fun s c => some (s.language, c)

def char : Parse Char := fun s c => some (s.charAt c.pos, c)

def charAfter (distance : Nat) : Parse Char := fun s c => some (s.charAt (c.pos + distance), c)

def atEnd : Parse Bool := fun s c => some (s.size ≤ c.pos, c)

def startsLine : Parse Bool := fun _ c => some (c.newline, c)

def advance (count : Nat) : Parse Unit := fun s c =>
  some ((), s.nextToken (c.pos + count))

/--
Moves behind a number of characters. What follows is not looked at.
-/
def advanceRaw (count : Nat) : Parse Unit := fun _ c =>
  some ((), { pos := c.pos + count, newline := false })

def settle : Parse Unit := advance 0

/--
Moves to the end that a scanning function finds, and on to the next token. Fails if the function finds
nothing.
-/
def scan (stop : Source → Nat → Nat) : Parse Unit := fun s c =>
  let pos := stop s c.pos
  if c.pos < pos then some ((), s.nextToken pos) else none

def looksAt (text : String) : Parse Bool := fun s c =>
  some (s.hasText c.pos text.toList, c)

def mark (text : String) : Parse Unit := fun s c =>
  if s.hasText c.pos text.toList then some ((), s.nextToken (c.pos + text.length)) else none

def optMark (text : String) : Parse Bool := fun s c =>
  if s.hasText c.pos text.toList then some (true, s.nextToken (c.pos + text.length))
  else some (false, c)

/--
The word at the cursor; empty if there is none. The cursor stays where it is.
-/
def peekWord : Parse String := fun s c =>
  some (s.slice c.pos (s.wordEnd c.pos), c)

def anyWord : Parse String := fun s c =>
  let stop := s.wordEnd c.pos
  if c.pos < stop then some (s.slice c.pos stop, s.nextToken stop) else none

def word (text : String) : Parse Unit := do
  let found ← anyWord
  require (found == text)

def optWord (text : String) : Parse Bool :=
  (do word text; return true) <|> return false

def markupComments : Parse Unit :=
  discard <| many do
    require ((← looksAt "<!--") || (← looksAt "-->"))
    scan fun s pos => s.lineEnd pos

def commaList (item : Parse Tree) : Parse (List Tree) := do
  match ← option item with
  | none => return []
  | some first =>
    let rest ← many do
      mark ","
      item
    discard <| optMark ","
    return first :: rest

end Parse

end TypeScript

end ParadigmScan
