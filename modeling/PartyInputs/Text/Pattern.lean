import PartyInputs.Text.Pattern.Class
import PartyInputs.Text.Unicode.Alphabetic
import PartyInputs.Text.Unicode.Numeric

/-!
# Patterns

Which texts are regular expressions. A pattern is read from left to right; all that has to be known
about what was read is which groups are open, whether the last part can be repeated, what the flags
in force say, and how deep the parts stand in one another. A pattern that is too deep is refused.
-/

namespace PartyInputs.Text.Pattern

/-- How deep a pattern can be. -/
def depthLimit : Nat := 250

/-- Whether a text can name a group. -/
def isGroupName : List Char → Bool
  | [] => false
  | c :: cs => (c = '_' || Unicode.isAlphabetic c) && cs.all fun c =>
    c = '_' || c = '.' || c = '[' || c = ']' || Unicode.isAlphabetic c || Unicode.isNumeric c

/-- A part of a pattern. -/
structure Part where
  depth : Nat := 0
  /-- Whether the part can be repeated, which flags cannot. -/
  repeatable : Bool := true

/-- What was read of a group that is open, or of the whole pattern. -/
structure OpenGroup where
  /-- How deep the alternatives are that were read to their end. -/
  alternatives : List Nat := []
  /-- The parts of the last alternative, the last one first. -/
  parts : List Part := []

namespace OpenGroup

/-- How deep the last alternative is. -/
def lastDepth (g : OpenGroup) : Nat := depthOf (g.parts.map (·.depth))

/-- How deep all alternatives are. -/
def depth (g : OpenGroup) : Nat := depthOf (g.lastDepth :: g.alternatives)

/-- The group with one more part. -/
def add (g : OpenGroup) (part : Part) : OpenGroup := { g with parts := part :: g.parts }

/-- The group with one more alternative. -/
def branch (g : OpenGroup) : OpenGroup := { alternatives := g.lastDepth :: g.alternatives }

/-- The group with its last part repeated. -/
def repeatLast? (g : OpenGroup) : Option OpenGroup :=
  match g.parts with
  | [] => none
  | part :: parts =>
    if part.repeatable then some { g with parts := { depth := part.depth + 1 } :: parts } else none

end OpenGroup

/-- What is known about the part of a pattern that was read. -/
structure Progress where
  modes : Modes := {}
  /-- The innermost group that is open. -/
  group : OpenGroup := {}
  /-- The groups around it, the innermost first, with the modes to go back to. -/
  outer : List (Modes × OpenGroup) := []
  /-- The names of groups so far. -/
  names : List (List Char) := []

namespace Progress

/-- What is known after one more part. -/
def add (p : Progress) (part : Part) : Progress := { p with group := p.group.add part }

/-- What is known after a character that stands for itself. -/
def addChar? (p : Progress) : Option Progress :=
  if p.modes.needsTable then none else some (p.add {})

/-- What is known after a group was opened, in which the given modes are in force. -/
def enter (p : Progress) (modes : Modes) : Progress :=
  { p with modes, group := {}, outer := (p.modes, p.group) :: p.outer }

/-- What is known after the innermost group was closed. -/
def leave? (p : Progress) : Option Progress :=
  match p.outer with
  | [] => none
  | (modes, group) :: outer =>
    some { p with modes, group := group.add { depth := p.group.depth + 1 }, outer }

/-- Reads the name of a group and enters the group. -/
def enterNamed? (p : Progress) (text : List Char) : Option (Progress × List Char) :=
  let name := text.takeWhile (· ≠ '>')
  match text.dropWhile (· ≠ '>') with
  | [] => none
  | _ :: rest =>
    if isGroupName name && !p.names.contains name then
      some ({ p.enter p.modes with names := name :: p.names }, rest)
    else none

/-- Reads flags, which are for a group if a colon follows and for the rest of this one if the
closing bracket follows. -/
def readFlags? (p : Progress) (text : List Char) : Option (Progress × List Char) :=
  let flags := text.takeWhile fun c => c ≠ ':' && c ≠ ')'
  if !isFlags flags then none
  else match text.dropWhile fun c => c ≠ ':' && c ≠ ')' with
    | ':' :: rest => some (p.enter (p.modes.update flags), rest)
    | ')' :: rest =>
      if flags = [] then none
      else some ({ p.add { repeatable := false } with modes := p.modes.update flags }, rest)
    | _ => none

/-- Opens a group, the bracket of which is gone. A group that only looks around is refused. -/
def openGroup? (p : Progress) (text : List Char) : Option (Progress × List Char) :=
  match p.modes.skip text with
  | '?' :: '=' :: _ | '?' :: '!' :: _ | '?' :: '<' :: '=' :: _ | '?' :: '<' :: '!' :: _ => none
  | '?' :: 'P' :: '<' :: rest | '?' :: '<' :: rest => p.enterNamed? rest
  | '?' :: rest => p.readFlags? rest
  | rest => some (p.enter p.modes, rest)

/-- Reads the next part, which starts with the given character. -/
def step? (p : Progress) (c : Char) (rest : List Char) : Option (Progress × List Char) :=
  match c with
  | '(' => p.openGroup? rest
  | ')' => p.leave?.map fun p => (p, rest)
  | '|' => some ({ p with group := p.group.branch }, rest)
  | '[' => (class? p.modes rest).map fun (depth, rest) => (p.add { depth := depth + 1 }, rest)
  | '?' | '*' | '+' => p.group.repeatLast?.map fun group =>
    ({ p with group }, if rest.head? = some '?' then rest.tail else rest)
  | '{' => none
  | '.' => if p.modes.unicode then some (p.add {}, rest) else none
  | '^' | '$' => some (p.add {}, rest)
  | '\\' => match escape? p.modes rest with
    | none => none
    | some (.char _, rest) => p.addChar?.map fun p => (p, rest)
    | some (_, rest) => some (p.add {}, rest)
  | _ => p.addChar?.map fun p => (p, rest)

/-- Whether a pattern can end here. -/
def isEnd (p : Progress) : Bool := p.outer.isEmpty && p.group.depth ≤ depthLimit

/-- Whether a pattern goes on with the given text and ends with it. -/
def finishes : (fuel : Nat) → Progress → List Char → Bool
  | 0, p, text => (p.modes.skip text).isEmpty && p.isEnd
  | fuel + 1, p, text =>
    match p.modes.skip text with
    | [] => p.isEnd
    | c :: rest =>
      match p.step? c rest with
      | none => false
      | some (p, rest) => finishes fuel p rest

end Progress

/-- Whether a text is a pattern. -/
def isWellFormed (text : List Char) : Bool := Progress.finishes text.length {} text

end PartyInputs.Text.Pattern
