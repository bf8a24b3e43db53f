import PartyInputs.Text.Decimal

/-!
# Reports as JSON

The values that reports are made of, and their indented text: two spaces per level, one item or
field a line, fields in the order given, an empty array or object on one line.
-/

namespace PartyInputs.Text

/-- A JSON value. Numbers are integers; an object keeps the order of its fields. -/
inductive Json where
  | null
  | bool (b : Bool)
  | int (i : Int)
  | str (s : String)
  | arr (items : List Json)
  | obj (fields : List (String × Json))
  deriving Inhabited

namespace Json

/-- A natural number as a JSON value. -/
def nat (n : Nat) : Json := .int n

/-- A value that may be absent; absence is `null`. -/
def ofOption (f : α → Json) : Option α → Json
  | none => .null
  | some a => f a

/-! ## Strings -/

/-- One character of a string: quotes, backslashes and controls are escaped. -/
def escape (c : Char) : List Char :=
  if c = '"' then ['\\', '"']
  else if c = '\\' then ['\\', '\\']
  else if c = '\x08' then ['\\', 'b']
  else if c = '\t' then ['\\', 't']
  else if c = '\n' then ['\\', 'n']
  else if c = '\x0c' then ['\\', 'f']
  else if c = '\r' then ['\\', 'r']
  else if c.toNat < 0x20 then
    ['\\', 'u', '0', '0', Nat.digitChar (c.toNat / 16), Nat.digitChar (c.toNat % 16)]
  else [c]

/-- A string with its quotes. -/
def renderString (s : String) : List Char := '"' :: s.toList.flatMap escape ++ ['"']

/-! ## Values -/

/-- A line end and the indentation of the next line. -/
def newLine (depth : Nat) : List Char := '\n' :: List.replicate (2 * depth) ' '

mutual

/-- The text of a value whose first line is at `depth`. -/
def renderAt (depth : Nat) : Json → List Char
  | .null => "null".toList
  | .bool true => "true".toList
  | .bool false => "false".toList
  | .int i => Decimal.numeral i
  | .str s => renderString s
  | .arr [] => ['[', ']']
  | .arr (item :: items) =>
    '[' :: newLine (depth + 1) ++ renderAt (depth + 1) item ++ renderItems (depth + 1) items ++
      newLine depth ++ [']']
  | .obj [] => ['\x7b', '\x7d']
  | .obj ((name, value) :: fields) =>
    '\x7b' :: newLine (depth + 1) ++ renderString name ++ [':', ' '] ++
      renderAt (depth + 1) value ++ renderFields (depth + 1) fields ++ newLine depth ++ ['\x7d']

/-- The items of an array after the first, each behind a comma and on a line of its own. -/
def renderItems (depth : Nat) : List Json → List Char
  | [] => []
  | item :: items => ',' :: newLine depth ++ renderAt depth item ++ renderItems depth items

/-- The fields of an object after the first, each behind a comma and on a line of its own. -/
def renderFields (depth : Nat) : List (String × Json) → List Char
  | [] => []
  | (name, value) :: fields =>
    ',' :: newLine depth ++ renderString name ++ [':', ' '] ++ renderAt depth value ++
      renderFields depth fields

end

/-- The indented text of a value. -/
def pretty (value : Json) : String := String.ofList (renderAt 0 value)

end Json

end PartyInputs.Text
