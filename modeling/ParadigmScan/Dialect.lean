/-!
This module contains the two dialects that sources are written in and the file names that belong to
them.
-/

namespace ParadigmScan

inductive Dialect where
  | typescript
  | tsx
  deriving DecidableEq, Repr, Inhabited

namespace Dialect

def name : Dialect → String
  | typescript => "typescript"
  | tsx => "tsx"

def ofName? : String → Option Dialect
  | "typescript" => some .typescript
  | "tsx" => some .tsx
  | _ => none

def ofPath (path : String) : Dialect :=
  if path.endsWith ".tsx" then .tsx else .typescript

end Dialect

inductive Language where
  | typescript
  | tsx
  deriving DecidableEq, Repr, Inhabited

def Dialect.language : Dialect → Language
  | typescript => .typescript
  | tsx => .tsx

def isSourceFile (name : String) : Bool :=
  (name.endsWith ".ts" || name.endsWith ".tsx") && !name.endsWith ".d.ts"

end ParadigmScan
