/-!
This module contains tables: lists of keys with values in which a key keeps the place where it came up
first.
-/

namespace ParadigmScan

abbrev Table (α : Type) := List (String × α)

namespace Table

/--
Gives a key a value. A new key comes last; a known one keeps its place.
-/
def set (table : Table α) (key : String) (value : α) : Table α :=
  match table with
  | [] => [(key, value)]
  | (other, old) :: rest =>
    if other == key then (key, value) :: rest else (other, old) :: Table.set rest key value

def merge (table other : Table α) : Table α :=
  other.foldl (fun table (key, value) => table.set key value) table

def ofPairs (pairs : List (String × α)) : Table α := merge [] pairs

def erase (table : Table α) (key : String) : Table α :=
  table.filter (·.1 != key)

end Table

end ParadigmScan
