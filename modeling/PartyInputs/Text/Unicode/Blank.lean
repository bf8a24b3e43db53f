/-!
# Blank characters

The code points with the property `White_Space`. Closed ranges, in ascending order.
-/

namespace PartyInputs.Text.Unicode

/-- The ranges of the property, both ends included. -/
def blank : List (Nat × Nat) :=
  [(0x0009, 0x000d), (0x0020, 0x0020), (0x0085, 0x0085), (0x00a0, 0x00a0), (0x1680, 0x1680),
    (0x2000, 0x200a), (0x2028, 0x2029), (0x202f, 0x202f), (0x205f, 0x205f), (0x3000, 0x3000)]

/-- Whether `c` is blank. -/
def isBlank (c : Char) : Bool :=
  blank.any fun range => range.1 ≤ c.toNat && c.toNat ≤ range.2

/-- Drops blanks at both ends. -/
def trim (text : List Char) : List Char :=
  ((text.dropWhile isBlank).reverse.dropWhile isBlank).reverse

end PartyInputs.Text.Unicode
