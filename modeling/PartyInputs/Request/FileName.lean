import PartyInputs.Request.Refusal

/-!
# Names of party files

A party file is an entry of the output directory, so its name must denote exactly one plain entry.
A name is taken apart as a path is, component by component. Different spellings of one entry are
brought to one name: `./a`, `a/` and `a/.` all denote `a`.
-/

namespace PartyInputs.FileName

/-- The pieces of a path between slashes. -/
def pieces (path : String) : List String := (path.toList.splitOn '/').map String.ofList

/-- What a path is made of. -/
inductive Component where
  /-- The path starts at the root. -/
  | root
  /-- The path starts where we are, and says so. -/
  | here
  /-- One level upwards. -/
  | up
  /-- The entry of this name. -/
  | entry (name : String)
  deriving DecidableEq, Repr

namespace Component

/-- The component that a path starts with before any of its pieces counts. A single dot is one only
there. -/
def ofStart? (path : String) : Option Component :=
  if path.toList.head? = some '/' then some root
  else if (pieces path).head? = some "." then some here
  else none

/-- The component that a piece makes; an empty piece and a single dot make none. -/
def ofPiece? (piece : String) : Option Component :=
  if piece = "" ∨ piece = "." then none
  else if piece = ".." then some up
  else some (entry piece)

/-- The components of a path, from left to right. -/
def ofPath (path : String) : List Component :=
  (ofStart? path).toList ++ (pieces path).filterMap ofPiece?

/-- The entry that components come down to, where `found` is the one that was met before them. To
stay where we are says nothing; a second entry, the root and a way upwards are one too many. -/
def sole? (found : Option String) : List Component → Option String
  | [] => found
  | here :: rest => sole? found rest
  | entry name :: rest =>
    match found with
    | none => sole? (some name) rest
    | some _ => none
  | root :: _ | up :: _ => none

end Component

/-- The plain entry that `raw` denotes. -/
def plain? (raw : String) : Option String := Component.sole? none (Component.ofPath raw)

/-- The plain entry that the name given for `party` denotes. -/
def accept (party : Nat) (raw : String) : Except Refusal String :=
  if raw = "" then .error (.nameEmpty party)
  else match plain? raw with
    | some name => .ok name
    | none => .error (.nameNotPlain party raw)

end PartyInputs.FileName
