import PartyInputs.Table.Basic
import PartyInputs.Text.Decimal
import PartyInputs.Text.Quoted
import PartyInputs.Text.Utf8

/-!
# Reading a table

The octets of a party file are checked to be UTF-8 as a whole. Then each line is cut into tokens at
blanks, and each token must be a numeral that fits into 64 bits. The first fault in file order is
the one reported.
-/

namespace PartyInputs

/-- Why octets are not a table. -/
inductive ReadFault where
  /-- The longest prefix that is UTF-8 has this many octets. -/
  | notUtf8 (offset : Nat)
  /-- The token on this line, counted from one, is not a numeral that fits into 64 bits. -/
  | notInteger (line : Nat) (token : String)
  deriving DecidableEq, Repr

/-- The fault in words. -/
def ReadFault.message : ReadFault → String
  | .notUtf8 offset => "input is not valid UTF-8 at byte offset " ++ Text.Decimal.ofNat offset
  | .notInteger line token =>
    "line " ++ Text.Decimal.ofNat line ++ ": token " ++ Text.Quoted.quote token ++
      " is not a decimal integer"

namespace Table

/-! ## Lines and tokens -/

/-- Blanks separate tokens: space, tab, line feed, form feed and carriage return. -/
def isBlank (c : Char) : Bool :=
  c = ' ' || c = '\t' || c = '\n' || c = '\x0c' || c = '\r'

/-- The lines of a text. Each line feed ends one, so nothing after the last one is no line. -/
def lines (text : List Char) : List (List Char) :=
  let pieces := text.splitOn '\n'
  if pieces.getLast? = some [] then pieces.dropLast else pieces

/-- The longest runs of characters other than blanks. -/
def tokens (line : List Char) : List (List Char) :=
  (line.splitOnP isBlank).filter (· ≠ [])

/-! ## Rows -/

/-- The value of a token on the given line. -/
def readToken (line : Nat) (token : List Char) : Except ReadFault Int64 :=
  match Text.Decimal.int64? token with
  | some v => .ok v
  | none => .error (.notInteger line (String.ofList token))

/-- The values of a line with the given number. -/
def readLine (line : Nat) (text : List Char) : Except ReadFault (List Int64) :=
  (tokens text).mapM (readToken line)

/-- The rows of successive lines, the first of which has the given number. -/
def readLines (first : Nat) (texts : List (List Char)) : Except ReadFault (List (List Int64)) :=
  (texts.zipIdx first).mapM fun (text, line) => readLine line text

/-- The table that a text holds. -/
def ofText (text : List Char) : Except ReadFault Table :=
  (readLines 1 (lines text)).map fun rows => ⟨rows, text.getLast? = some '\n'⟩

/-- The table that octets hold. -/
def read (octets : List UInt8) : Except ReadFault Table :=
  match Text.Utf8.decode octets with
  | .error offset => .error (.notUtf8 offset)
  | .ok text => ofText text

end Table

end PartyInputs
