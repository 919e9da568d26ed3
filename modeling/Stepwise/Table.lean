/-
Tables that remember the order in which their keys came in.

A table is a list of entries. Putting a value under a key that is already
there replaces the value in place; a new key goes to the end. Keys are
compared by the `BEq` of their type, which for addresses is equality of
numbers, so the key that stays is the one that came first.
-/

set_option autoImplicit false

namespace Stepwise

/-- Entries in order of first insertion. -/
abbrev Table (κ ν : Type) := List (κ × ν)

namespace Table

variable {κ ν : Type} [BEq κ]

/-- The value under a key. -/
def find? (table : Table κ ν) (key : κ) : Option ν :=
  match table with
  | [] => none
  | (k, v) :: rest => if k == key then some v else find? rest key

/-- Is there a value under the key? -/
def has (table : Table κ ν) (key : κ) : Bool :=
  (table.find? key).isSome

/-- The table with a value under a key: in the key's place, or at the end. -/
def put (table : Table κ ν) (key : κ) (value : ν) : Table κ ν :=
  match table with
  | [] => [(key, value)]
  | (k, v) :: rest => if k == key then (k, value) :: rest else (k, v) :: put rest key value

/-- The table with the entries of another put in, one after the other. -/
def putAll (table : Table κ ν) (entries : Table κ ν) : Table κ ν :=
  entries.foldl (fun t e => t.put e.1 e.2) table

/-- The table without the entry of a key. -/
def drop (table : Table κ ν) (key : κ) : Table κ ν :=
  match table with
  | [] => []
  | (k, v) :: rest => if k == key then rest else (k, v) :: drop rest key

/-- A table of the entries of a list, later ones replacing earlier ones of the same key. -/
def ofEntries (entries : List (κ × ν)) : Table κ ν :=
  putAll [] entries

/-- The keys in order. -/
def keys (table : Table κ ν) : List κ :=
  table.map (·.1)

/-- The values in order. -/
def values (table : Table κ ν) : List ν :=
  table.map (·.2)

end Table

end Stepwise
