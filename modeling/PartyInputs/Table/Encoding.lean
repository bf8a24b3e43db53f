import PartyInputs.Text.Decimal
import PartyInputs.Text.Utf8

/-!
# The octets of a table

A row is its values in decimal with one space between two of them and a line feed at its end; a
table is its rows, one after the other. A blank line is a row without values.
-/

namespace PartyInputs

/-- What stands between two values of a row. -/
def separator : UInt8 := 0x20

/-- What ends a row. -/
def terminator : UInt8 := 0x0a

/-- The octets of a value. -/
def encodeValue (v : Int64) : List UInt8 := Text.Utf8.encode (Text.Decimal.numeral v.toInt)

/-- The octets of the values of a row. -/
def encodeValues : List Int64 → List UInt8
  | [] => []
  | [v] => encodeValue v
  | v :: vs => encodeValue v ++ separator :: encodeValues vs

/-- The octets of a row. -/
def encodeRow (values : List Int64) : List UInt8 := encodeValues values ++ [terminator]

/-- The octets of rows, one after the other. -/
def encodeRows (rows : List (List Int64)) : List UInt8 := rows.flatMap encodeRow

@[simp] theorem encodeRows_nil : encodeRows [] = [] := rfl

theorem encodeRows_cons (row : List Int64) (rows : List (List Int64)) :
    encodeRows (row :: rows) = encodeRow row ++ encodeRows rows := rfl

theorem encodeRows_append (rows more : List (List Int64)) :
    encodeRows (rows ++ more) = encodeRows rows ++ encodeRows more := by
  simp [encodeRows]

end PartyInputs
