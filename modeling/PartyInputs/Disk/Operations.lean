import PartyInputs.Disk.Basic

/-!
# Operations on disks

Making directories, opening files for writing, writing, reading, measuring and removing them. An
operation that fails leaves the disk as it was, except that a write that does not fit leaves the
part that does, and that the directories made on the way to one that cannot be made stay.
-/

namespace PartyInputs.Disk

/-! ## Directories -/

/-- Makes the directory that a path names. -/
def makeDirectory (d : Disk) (path : String) : Except Fault Disk := do
  let r ← route path
  match ← d.place r with
  | (_, none) => throw .alreadyExists
  | (loc, some name) =>
    if nameLimit < name.utf8ByteSize then throw .nameTooLong
    if (d.entry? (loc ++ [name])).isSome then throw .alreadyExists
    return d.set (loc ++ [name]) .directory

/-- Makes the directory that a path names and those on the way to it, unless they are there. If the
way to it is not there, the directory that the parent of the path names is made in the same manner
and then this one is tried again. The empty path asks for nothing. -/
def makeDirectories (d : Disk) (path : String) : Except Fault Unit × Disk :=
  if path = "" then (.ok (), d)
  else match d.makeDirectory path with
    | .ok made => (.ok (), made)
    | .error .notFound =>
      match _h : Path.parent? path with
      | none => (.error .notFound, d)
      | some parent =>
        match d.makeDirectories parent with
        | (.error fault, led) => (.error fault, led)
        | (.ok (), led) =>
          match led.makeDirectory path with
          | .ok made => (.ok (), made)
          | .error fault => (if led.isDirectory path then .ok () else .error fault, led)
    | .error fault => (if d.isDirectory path then .ok () else .error fault, d)
termination_by path.length
decreasing_by exact Path.length_lt_of_parent? _h

/-! ## Files -/

/-- Empties the file at a location, or adds one. A device stays as it is. -/
def empty (d : Disk) (loc : Location) : Disk :=
  match d.entry? loc with
  | some (.device _) => d
  | _ => d.set loc (.file [])

/-- Opens the file that a path names for writing: a file that is there is emptied, one that is not
is added. The location of what was opened is given back. -/
def openFile (d : Disk) (path : String) : Except Fault (Location × Disk) := do
  let r ← route path
  match ← d.place r with
  | (_, none) => throw .isDirectory
  | (loc, some name) =>
    if r.closed then throw .isDirectory
    if nameLimit < name.utf8ByteSize then throw .nameTooLong
    match d.entry? (loc ++ [name]) with
    | some .directory => throw .isDirectory
    | _ => return (loc ++ [name], d.empty (loc ++ [name]))

/-- How the entry at a location takes what is written to it. -/
def medium (d : Disk) (loc : Location) : Medium :=
  match d.entry? loc with
  | some (.device .null) => {}
  | some (.device .full) => { limit := some 0, whenFull := some .noSpace }
  | _ => d.limits.medium loc

/-- Keeps octets at a location, behind those that the file there holds. Nothing else keeps any. -/
def keep (d : Disk) (loc : Location) (octets : List UInt8) : Disk :=
  match d.entry? loc with
  | some (.file held) => d.set loc (.file (held ++ octets))
  | _ => d

/-- Writes a whole file. -/
def write (d : Disk) (path : String) (octets : List UInt8) : Except Fault Unit × Disk :=
  match d.openFile path with
  | .error fault => (.error fault, d)
  | .ok (loc, d) =>
    let (result, sink) := Sink.put { medium := d.medium loc } octets
    (result, d.keep loc sink.octets)

/-- The octets of the file that a path leads to. The full device is read without end, which no
memory can hold. -/
def read (d : Disk) (path : String) : Except Fault (List UInt8) :=
  match d.find path with
  | .error fault => .error fault
  | .ok (.file octets) => .ok octets
  | .ok .directory => .error .isDirectory
  | .ok (.device .null) => .ok []
  | .ok (.device .full) => .error (.other "out of memory")

/-- The number of octets that a directory takes up. -/
def directorySize : Nat := 4096

/-- The size of what a path leads to. -/
def size (d : Disk) (path : String) : Except Fault Nat :=
  match d.find path with
  | .error fault => .error fault
  | .ok (.file octets) => .ok octets.length
  | .ok .directory => .ok directorySize
  | .ok (.device _) => .ok 0

/-- Removes the file that a path leads to. -/
def removeFile (d : Disk) (path : String) : Except Fault Disk := do
  let loc ← d.locate path
  match d.entry? loc with
  | some .directory => throw .isDirectory
  | some _ => return d.erase loc
  | none => throw .notFound

/-! ## Whole disks -/

/-- A disk with the two devices and a home directory that is empty. -/
def withHome (home : Location) : Disk where
  home
  entries :=
    [(["dev"], .directory), (["dev", "null"], .device .null), (["dev", "full"], .device .full)] ++
      (List.range home.length).map fun n => (home.take (n + 1), .directory)

/-- The entries below the home directory: the path of each from there and, for a file, its octets.
The path of a directory ends in a slash. -/
def listing (d : Disk) : List (String × Option (List UInt8)) :=
  d.entries.filterMap fun (loc, e) =>
    if d.home.isPrefixOf loc ∧ loc ≠ d.home then
      let path := "/".intercalate (loc.drop d.home.length)
      match e with
      | .directory => some (path ++ "/", none)
      | .file octets => some (path, some octets)
      | .device _ => none
    else none

end PartyInputs.Disk
