import PartyInputs.Disk.Path
import PartyInputs.Sink

/-!
# Disks

A disk is a value: entries at locations, where a location is the list of names that lead to it from
the root. There are no links. Paths are followed name by name, and what stands in the way of one is
a fault. Two devices stand for files that are not on the disk: one swallows everything, the other
is always full.
-/

namespace PartyInputs

/-- The names that lead from the root to an entry. -/
abbrev Location := List String

/-- A file that is not on the disk. -/
inductive Device where
  /-- Takes everything and keeps nothing. -/
  | null
  /-- Has no room for anything. -/
  | full
  deriving DecidableEq, Repr

/-- What is found at a location. -/
inductive Entry where
  | directory
  | file (octets : List UInt8)
  | device (device : Device)
  deriving DecidableEq, Repr

/-- How much a file can hold. -/
structure FileLimit where
  octets : Nat
  /-- How writing more than that fails. -/
  fault : Fault := .fileTooLarge
  deriving DecidableEq, Repr

/-- How much the files of a disk can hold. -/
structure FileLimits where
  /-- The limits of the files at some locations. -/
  own : List (Location × FileLimit) := []
  /-- The limit of all other files; `none` if there is no limit. -/
  common : Option FileLimit := none
  deriving DecidableEq, Repr

/-- How the file at a location takes what is written to it. -/
def FileLimits.medium (limits : FileLimits) (loc : Location) : Medium :=
  match (limits.own.lookup loc).or limits.common with
  | some limit => { limit := some limit.octets, whenFull := some limit.fault }
  | none => {}

/-- Entries at locations, and the location that paths without a root start from. -/
structure Disk where
  home : Location := []
  /-- The entries below the root. Of two at one location the first one counts. -/
  entries : List (Location × Entry) := []
  limits : FileLimits := {}
  deriving DecidableEq, Repr

namespace Disk

/-! ## Entries -/

/-- The entry at a location. The root is a directory. -/
def entry? (d : Disk) (loc : Location) : Option Entry :=
  if loc = [] then some .directory else d.entries.lookup loc

/-- Replaces the first entry at a location, or adds one behind the others. -/
def setEntry (loc : Location) (e : Entry) : List (Location × Entry) → List (Location × Entry)
  | [] => [(loc, e)]
  | (l, old) :: entries => if l = loc then (l, e) :: entries else (l, old) :: setEntry loc e entries

/-- The disk with an entry put at a location. -/
def set (d : Disk) (loc : Location) (e : Entry) : Disk :=
  { d with entries := setEntry loc e d.entries }

/-- The disk without the entry at a location. -/
def erase (d : Disk) (loc : Location) : Disk :=
  { d with entries := d.entries.filter (·.1 ≠ loc) }

/-! ## Following paths -/

/-- The largest number of octets in a name. -/
def nameLimit : Nat := 255

/-- The largest number of octets in a path. -/
def pathLimit : Nat := 4095

/-- The route of a path that the system accepts as one. -/
def route (path : String) : Except Fault Route :=
  if '\x00' ∈ path.toList then .error .nullInPath
  else if path = "" then .error .notFound
  else if pathLimit < path.utf8ByteSize then .error .nameTooLong
  else .ok (.ofPath path)

/-- The location that a route starts from. -/
def start (d : Disk) (r : Route) : Location := if r.rooted then [] else d.home

/-- Checks that there is a directory at a location. -/
def expectDirectory (d : Disk) (loc : Location) : Except Fault Unit :=
  match d.entry? loc with
  | some .directory => .ok ()
  | some _ => .error .notDirectory
  | none => .error .notFound

/-- The location that a name leads to from a directory. -/
def step (d : Disk) (loc : Location) (name : String) : Except Fault Location :=
  match d.expectDirectory loc with
  | .error fault => .error fault
  | .ok () =>
    if name = "." then .ok loc
    else if name = ".." then .ok loc.dropLast
    else if nameLimit < name.utf8ByteSize then .error .nameTooLong
    else if (d.entry? (loc ++ [name])).isSome then .ok (loc ++ [name])
    else .error .notFound

/-- The location that names lead to, one after the other. -/
def walk (d : Disk) (loc : Location) : List String → Except Fault Location
  | [] => .ok loc
  | name :: names =>
    match d.step loc name with
    | .error fault => .error fault
    | .ok next => d.walk next names

/-- The location of the entry that a path leads to. -/
def locate (d : Disk) (path : String) : Except Fault Location := do
  let r ← route path
  let loc ← d.walk (d.start r) r.names
  if r.closed then d.expectDirectory loc
  return loc

/-- The entry that a path leads to. -/
def find (d : Disk) (path : String) : Except Fault Entry :=
  match d.locate path with
  | .error fault => .error fault
  | .ok loc => (d.entry? loc).elim (.error .notFound) .ok

/-- Whether a path leads to a directory. -/
def isDirectory (d : Disk) (path : String) : Bool :=
  match d.find path with
  | .ok .directory => true
  | _ => false

/-- The directory that the last name of a route stands in, and that name; no name if the route has
none or ends in dots. -/
def place (d : Disk) (r : Route) : Except Fault (Location × Option String) :=
  match r.names.getLast? with
  | none => .ok (d.start r, none)
  | some name => do
    let loc ← d.walk (d.start r) r.names.dropLast
    d.expectDirectory loc
    return (loc, if name = "." ∨ name = ".." then none else some name)

end Disk

end PartyInputs
