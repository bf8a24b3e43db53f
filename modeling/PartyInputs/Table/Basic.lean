/-!
# Tables of integers

A party file holds a table: rows of 64-bit integers, one row a line, rows of any length. Whether the
last line was ended is part of what a file says, so a table that was read remembers it.
-/

namespace PartyInputs

/-- The content of a party file. -/
structure Table where
  /-- The rows in file order; a blank line is an empty row. -/
  rows : List (List Int64)
  /-- Whether the text ends with a line end. -/
  terminated : Bool
  deriving DecidableEq, Repr

namespace Table

/-- The number of values in each row. -/
def widths (t : Table) : List Nat := t.rows.map List.length

/-- The width that all rows share; `none` if two differ or there is no row. -/
def uniformWidth? (t : Table) : Option Nat :=
  match t.rows with
  | [] => none
  | row :: rows => if rows.all fun r => r.length = row.length then some row.length else none

/-- The values, row after row. -/
def values (t : Table) : List Int64 := t.rows.flatten

/-- The number of values. -/
def valueCount (t : Table) : Nat := t.widths.foldr (· + ·) 0

/-- The least and the greatest value; `none` if there is no value. -/
def bounds? (t : Table) : Option (Int64 × Int64) :=
  match t.values with
  | [] => none
  | v :: vs => some (vs.foldl min v, vs.foldl max v)

theorem valueCount_eq_length_values (t : Table) : t.valueCount = t.values.length := by
  rw [valueCount, values, widths]
  induction t.rows with
  | nil => rfl
  | cons row rows ih => simp only [List.map_cons, List.foldr_cons, List.flatten_cons,
      List.length_append, ih]

end Table

end PartyInputs
