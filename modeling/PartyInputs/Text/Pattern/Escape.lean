import PartyInputs.Text.Unicode.Blank

/-!
# Patterns: flags, blanks, and escapes

What can be said about a pattern apart from how its parts stand in one another: which flags are in
force, what blanks and comments mean under them, and what a backslash makes of the characters behind
it.

A pattern is for automata that run over characters once. So it names no place between characters
that depends on the words around it, and no octets that are no character of their own. It knows no
tables of characters: `\d` and its like are refused unless the pattern speaks about octets. It
stands between braces where it is used and holds no closing brace, so an escape that needs one is
refused.
-/

namespace PartyInputs.Text.Pattern

/-- What the flags in force change about reading. -/
structure Modes where
  /-- Whether the pattern speaks about all characters; otherwise it speaks about octets. -/
  unicode : Bool := true
  /-- Whether a letter stands for both of its cases. -/
  anyCase : Bool := false
  /-- Whether blanks and comments between the parts say nothing. -/
  spaced : Bool := false

namespace Modes

/-- Whether the flags ask for a table of characters to read a character with. -/
def needsTable (modes : Modes) : Bool := modes.unicode && modes.anyCase

/-- The modes that flags bring about; flags behind a dash are switched off. -/
def update (modes : Modes) (flags : List Char) : Modes :=
  let state (flag : Char) (before : Bool) : Bool :=
    if flags.contains flag then (flags.takeWhile (· ≠ '-')).contains flag else before
  ⟨state 'u' modes.unicode, state 'i' modes.anyCase, state 'x' modes.spaced⟩

end Modes

/-- Whether a text is a list of flags: none stands twice, and a dash has flags behind it. -/
def isFlags (text : List Char) : Bool :=
  text.all (fun c => "-imsRUux".toList.contains c) && decide text.Nodup && text.getLast? ≠ some '-'

/-! ## Blanks -/

/-- Drops blanks and comments. A comment reaches from a number sign to the end of its line. -/
def dropBlanks : (inComment : Bool) → List Char → List Char
  | _, [] => []
  | true, c :: cs => dropBlanks (c ≠ '\n') cs
  | false, c :: cs =>
    if c = '#' then dropBlanks true cs
    else if Unicode.isBlank c then dropBlanks false cs
    else c :: cs

/-- Drops what says nothing at the start of a text. -/
def Modes.skip (modes : Modes) (text : List Char) : List Char :=
  if modes.spaced then dropBlanks false text else text

/-- The character that a text goes on with as far as a dash in front of it can see: it sees through
blanks and one number sign, but takes a comment for what is meant. -/
def Modes.peek? (modes : Modes) (text : List Char) : Option Char :=
  if !modes.spaced then text.head?
  else match text.dropWhile Unicode.isBlank with
    | '#' :: rest => (rest.dropWhile Unicode.isBlank).head?
    | rest => rest.head?

/-! ## Escapes -/

/-- What a backslash makes of the characters behind it. -/
inductive Escape where
  | char (c : Char)
  /-- Any one of a set of characters. -/
  | set
  /-- A place between characters. -/
  | place

/-- The value of a hexadecimal digit. -/
def hexDigit? (c : Char) : Option Nat :=
  if c.isDigit then some (c.toNat - '0'.toNat)
  else if 'a' ≤ c.toLower ∧ c.toLower ≤ 'f' then some (c.toLower.toNat - 'a'.toNat + 10)
  else none

/-- Reads `count` more digits of a hexadecimal number that starts with `n`. -/
def hexNumber? (modes : Modes) : (count n : Nat) → List Char → Option (Nat × List Char)
  | 0, n, text => some (n, text)
  | count + 1, n, text =>
    match modes.skip text with
    | [] => none
    | c :: rest => (hexDigit? c).bind fun digit => hexNumber? modes count (16 * n + digit) rest

/-- The character whose code point the first `count` digits spell, and what follows them. -/
def codePoint? (modes : Modes) (count : Nat) (text : List Char) : Option (Char × List Char) := do
  let (n, rest) ← hexNumber? modes count 0 text
  if n.isValidChar then some (Char.ofNat n, rest) else none

/-- The escape that the characters behind a backslash make, and what follows it. -/
def escape? (modes : Modes) : List Char → Option (Escape × List Char)
  | [] => none
  | c :: rest =>
    let char (made : Char) : Option (Escape × List Char) := some (.char made, rest)
    match c with
    | 'x' => do
      let (made, rest) ← codePoint? modes 2 rest
      if modes.unicode || made.toNat < 0x80 then some (.char made, rest) else none
    | 'u' => (codePoint? modes 4 rest).map fun (made, rest) => (.char made, rest)
    | 'U' => (codePoint? modes 8 rest).map fun (made, rest) => (.char made, rest)
    | 'd' | 's' | 'w' => if modes.unicode then none else some (.set, rest)
    | 'A' | 'z' => some (.place, rest)
    | 'b' | 'B' | '<' | '>' => if modes.unicode then none else some (.place, rest)
    | 'a' => char '\x07'
    | 'f' => char '\x0c'
    | 'n' => char '\n'
    | 'r' => char '\r'
    | 't' => char '\t'
    | 'v' => char '\x0b'
    | c => if c.isAlphanum || 0x80 ≤ c.toNat then none else char c

end PartyInputs.Text.Pattern
