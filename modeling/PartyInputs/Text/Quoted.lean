import PartyInputs.Text.Unicode.Extending
import PartyInputs.Text.Unicode.Unprinted

/-!
# Quoted text

Text from outside is shown in messages between double quotes, escaped so that it stays on one line
and every character of it can be told apart: `"` and `\` get a backslash before them, the tab, the
line ends and the null character have letters, and each further character that would not be seen as
itself is written by its code point, `\u{…}`.
-/

namespace PartyInputs.Text.Quoted

/-- The halfwidth sound marks extend a grapheme and yet show in a cell of their own. -/
def isHalfwidthMark (c : Char) : Bool := c = '\uff9e' || c = '\uff9f'

/-- The Hangul fillers are letters and yet show nothing. -/
def isFiller (c : Char) : Bool :=
  c = '\u115f' || c = '\u1160' || c = '\u3164' || c = '\uffa0'

/-- Characters that are written by code point: they attach to their neighbour or show nothing. The
plain space is the one blank that stands for itself. -/
def isHidden (c : Char) : Bool :=
  (Unicode.isExtending c && !isHalfwidthMark c) || (c ≠ ' ' && Unicode.isUnprinted c) || isFiller c

/-- The code point of `c` in lower-case hexadecimal digits, without padding. -/
def codePoint (c : Char) : List Char := Nat.toDigits 16 c.toNat

/-- One character between the quotes. -/
def escape (c : Char) : List Char :=
  if c = '\x00' then ['\\', '0']
  else if c = '\t' then ['\\', 't']
  else if c = '\r' then ['\\', 'r']
  else if c = '\n' then ['\\', 'n']
  else if c = '\\' then ['\\', '\\']
  else if c = '"' then ['\\', '"']
  else if isHidden c then ['\\', 'u', '\x7b'] ++ codePoint c ++ ['\x7d']
  else [c]

/-- The characters between the quotes. -/
def escapeAll (text : List Char) : List Char := text.flatMap escape

/-- The text between double quotes. -/
def quote (text : String) : String := String.ofList ('"' :: escapeAll text.toList ++ ['"'])

theorem toList_quote (text : String) :
    (quote text).toList = '"' :: escapeAll text.toList ++ ['"'] := by simp [quote]

end PartyInputs.Text.Quoted
