import PartyInputs.Text.Pattern.Escape

/-!
# Patterns: classes

A class names a set of characters in brackets. Its members are characters, ranges of characters,
sets that have a name, and classes; between members, two ampersands, dashes, or tildes make a set
of the members on both sides. Reading a class gives what follows it and how deep it is.

What a class would need a table of characters for is refused: a member, if letters stand for both
of their cases; a class without members needs none. A class of octets that leaves something out is
refused as well, because it would hold octets that are no character of their own.
-/

namespace PartyInputs.Text.Pattern

/-- How deep parts side by side are, by how deep each of them is: one part alone adds nothing. -/
def depthOf : List Nat → Nat
  | [] => 0
  | [depth] => depth
  | depths => depths.foldl max 0 + 1

/-! ## Classes that are open -/

/-- What is known about a class that is open. -/
structure OpenClass where
  /-- How deep the members since the last operator are, the last one first. -/
  members : List Nat := []
  /-- How deep what stands in front of the last operator is. -/
  left : Option Nat := none
  /-- Whether only dashes were read, so that one more dash stands for itself. -/
  fresh : Bool := true

namespace OpenClass

/-- How deep the class is so far. -/
def depth (k : OpenClass) : Nat :=
  match k.left with
  | none => depthOf k.members
  | some left => max left (depthOf k.members) + 1

/-- The class with one more member. -/
def add (k : OpenClass) (depth : Nat) : OpenClass :=
  { k with members := depth :: k.members, fresh := false }

/-- The class behind an operator. -/
def operate (k : OpenClass) : OpenClass := { left := some k.depth, fresh := false }

end OpenClass

/-! ## Members -/

/-- The names of sets that stand between colons. -/
def setNames : List String :=
  ["alnum", "alpha", "ascii", "blank", "cntrl", "digit", "graph", "lower", "print", "punct",
    "space", "upper", "word", "xdigit"]

/-- Whether a set that has a name, the first bracket of which is gone, leaves its members out, and
what follows it. -/
def namedSet? : List Char → Option (Bool × List Char)
  | ':' :: rest =>
    let negated := rest.head? = some '^'
    let rest := if negated then rest.tail else rest
    match rest.dropWhile (· ≠ ':') with
    | ':' :: ']' :: behind =>
      if String.ofList (rest.takeWhile (· ≠ ':')) ∈ setNames then some (negated, behind) else none
    | _ => none
  | _ => none

/-- A member of a class and what follows it: a character, or a set (`none`). -/
def member? (modes : Modes) (text : List Char) : Option (Option Char × List Char) :=
  let char (c : Char) (rest : List Char) : Option (Option Char × List Char) :=
    if modes.unicode || c.toNat < 0x80 then some (some c, rest) else none
  match text with
  | [] => none
  | '\\' :: rest =>
    match escape? modes rest with
    | some (.char c, rest) => char c rest
    | some (.set, rest) => some (none, rest)
    | _ => none
  | c :: rest => char c rest

/-- What follows a member or a range of members. A dash that the closing bracket or another dash
seems to follow makes no range. -/
def members? (modes : Modes) (text : List Char) : Option (List Char) := do
  if modes.needsTable then none
  let (first, rest) ← member? modes text
  match modes.skip rest with
  | '-' :: more =>
    if modes.peek? more = some ']' ∨ modes.peek? more = some '-' then return '-' :: more
    let (last, behind) ← member? modes (modes.skip more)
    match first, last with
    | some first, some last => if first ≤ last then return behind else none
    | _, _ => none
  | rest => return rest

/-! ## Reading a class -/

/-- What follows the opening of a class, the bracket of which is gone, and the mark that it leaves
its members out. -/
def openClass? (modes : Modes) (text : List Char) : Option (List Char) :=
  match modes.skip text with
  | '^' :: rest => if modes.unicode then some rest else none
  | rest => some rest

/-- How deep the class `k` is, which is open within others, the innermost of them first, and what
follows the outermost one. -/
def closeClass? (modes : Modes) :
    (fuel : Nat) → OpenClass → List OpenClass → List Char → Option (Nat × List Char)
  | 0, _, _, _ => none
  | fuel + 1, k, outer, text =>
    let members (text : List Char) : Option (Nat × List Char) :=
      (members? modes text).bind (closeClass? modes fuel (k.add 0) outer)
    let alone (rest : List Char) (fresh : Bool) : Option (Nat × List Char) :=
      if modes.needsTable then none
      else closeClass? modes fuel { k.add 0 with fresh } outer rest
    let close (rest : List Char) : Option (Nat × List Char) :=
      match outer with
      | [] => some (k.depth, rest)
      | next :: outer => closeClass? modes fuel (next.add (k.depth + 1)) outer rest
    match modes.skip text with
    | [] => none
    | '-' :: '-' :: rest =>
      if k.fresh then alone ('-' :: rest) true
      else closeClass? modes fuel k.operate outer rest
    | '-' :: rest => if k.fresh then alone rest true else members ('-' :: rest)
    | ']' :: rest => if k.fresh && k.members.isEmpty then alone rest false else close rest
    | '[' :: rest =>
      match namedSet? rest with
      | some (negated, rest) =>
        if modes.needsTable || (negated && !modes.unicode) then none
        else closeClass? modes fuel (k.add 0) outer rest
      | none => (openClass? modes rest).bind (closeClass? modes fuel {} (k :: outer))
    | '&' :: '&' :: rest | '~' :: '~' :: rest => closeClass? modes fuel k.operate outer rest
    | text => members text

/-- How deep a class is, the opening bracket of which is gone, and what follows it. -/
def class? (modes : Modes) (text : List Char) : Option (Nat × List Char) :=
  (openClass? modes text).bind fun rest => closeClass? modes (rest.length + 1) {} [] rest

end PartyInputs.Text.Pattern
