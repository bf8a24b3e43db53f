import PartyInputs.Table.Reading
import PartyInputs.Text.Grouped
import PartyInputs.Text.Json
import PartyInputs.Values.Interval

/-!
# Inspection of a party file

What there is to say about the octets of a party file: its size, the widths of its rows, the bounds
of its values, whether its last line is ended, and how many values fall outside of an interval.
-/

namespace PartyInputs

/-- The widths of the rows of a table. -/
inductive Profile where
  /-- There is no row. -/
  | empty
  /-- All rows have this many values. -/
  | uniform (width : Nat)
  /-- Two rows differ; the widths of all rows, in order. -/
  | ragged (widths : List Nat)
  deriving DecidableEq, Repr

/-- What there is to say about a party file. -/
structure Inspection where
  /-- The number of octets. -/
  size : Nat
  rows : Nat
  profile : Profile
  values : Nat
  least : Option Int64
  greatest : Option Int64
  /-- Whether the text ends with a line end. -/
  terminated : Bool
  /-- The interval that values were expected to fall into, if one was given. -/
  expected : Option Interval
  /-- The number of values outside of that interval. -/
  outside : Nat
  deriving DecidableEq, Repr

namespace Table

/-- The widths of the rows in short. -/
def profile (t : Table) : Profile :=
  if t.rows.isEmpty then .empty
  else match t.uniformWidth? with
    | some width => .uniform width
    | none => .ragged t.widths

/-- The number of values outside of an interval. -/
def countOutside (t : Table) (r : Interval) : Nat := t.values.countP fun v => !r.contains v

end Table

namespace Inspection

/-- The inspection of a table that was read from `size` octets. -/
def ofTable (size : Nat) (t : Table) (expected : Option Interval) : Inspection where
  size
  rows := t.rows.length
  profile := t.profile
  values := t.valueCount
  least := t.bounds?.map (·.1)
  greatest := t.bounds?.map (·.2)
  terminated := t.terminated
  expected
  outside := expected.elim 0 t.countOutside

/-- Inspects the octets of a party file. -/
def ofOctets (octets : List UInt8) (expected : Option Interval) : Except ReadFault Inspection :=
  (Table.read octets).map fun t => ofTable octets.length t expected

/-! ## For people -/

/-- The profile in words, for a table of `rows` rows. -/
def profileText (rows : Nat) : Profile → String
  | .empty => "empty"
  | .uniform width => Text.Decimal.ofNat rows ++ " x " ++ Text.Decimal.ofNat width
  | .ragged widths => "ragged [" ++ ", ".intercalate (widths.map Text.Decimal.ofNat) ++ "]"

/-- The lines that are shown. -/
def lines (i : Inspection) : List String :=
  ["bytes: " ++ Text.Grouped.ofNat i.size ++ " rows: " ++ Text.Decimal.ofNat i.rows ++
      " values: " ++ Text.Decimal.ofNat i.values,
    "shape: " ++ profileText i.rows i.profile] ++
  (match i.least, i.greatest with
    | some least, some greatest =>
      ["min: " ++ Text.Decimal.ofInt64 least ++ " max: " ++ Text.Decimal.ofInt64 greatest]
    | _, _ => []) ++
  (if !i.terminated && i.rows > 0 then ["warning: last row is not newline-terminated"] else []) ++
  (match i.expected with
    | some interval =>
      ["range " ++ interval.text ++ ": " ++ Text.Decimal.ofNat i.outside ++ " values out of range"]
    | none => [])

/-- The lines in one text. -/
def text (i : Inspection) : String := "\n".intercalate i.lines

/-! ## As JSON -/

/-- The profile in a report. -/
def profileJson : Profile → Text.Json
  | .empty => .str "empty"
  | .uniform width => .obj [("uniform", .nat width)]
  | .ragged widths => .obj [("ragged", .arr (widths.map .nat))]

/-- An integer in a report. -/
def int64Json (v : Int64) : Text.Json := .int v.toInt

/-- The inspection in a report. -/
def json (i : Inspection) : Text.Json :=
  .obj [
    ("byte_len", .nat i.size),
    ("rows", .nat i.rows),
    ("shape", profileJson i.profile),
    ("values", .nat i.values),
    ("min", .ofOption int64Json i.least),
    ("max", .ofOption int64Json i.greatest),
    ("trailing_newline", .bool i.terminated),
    ("expected_range", .ofOption Interval.json i.expected),
    ("out_of_range", .nat i.outside)]

end Inspection

end PartyInputs
