import PartyInputs.Command.Perform

/-!
# The program

The outer layer. It takes a picture of the part of the file system that the command line names,
performs the invocation on the picture, brings the changes back to the file system, and shows what
there is to show.
-/

namespace PartyInputs.Program

/-- The paths that an invocation may read or write. -/
def pathsOf : Invocation → List String
  | .task _ (.generate o) =>
    o.directory :: o.request.destination.paths ++ o.overviewPath.toList
  | .task _ (.inspect o) => [o.path]
  | _ => []

/-- The locations that a path passes through, each with the path that leads there. -/
def stations (home : Location) (path : String) : List (Location × String) :=
  let route := Route.ofPath path
  let visit (seen : List (Location × String)) (name : String) :=
    let (loc, text) := seen.headD (if route.rooted then ([], "/") else (home, ""))
    let loc :=
      if name = "." then loc else if name = ".." then loc.dropLast else loc ++ [name]
    (loc, Destination.pathOf text name) :: seen
  (route.names.foldl visit []).reverse

/-- What is found in the file system at a path. -/
def found (path : String) : IO (Option Entry) := do
  try
    return some (.file (← IO.FS.readBinFile path).toList)
  catch _ =>
    if ← ((← IO.currentDir) / path).isDir then return some .directory else return none

/-- Adds what is found at a station to a picture of the file system. -/
def picture (disk : Disk) (station : Location × String) : IO Disk := do
  if (disk.entry? station.1).isSome then return disk
  match ← found station.2 with
  | some entry => return disk.set station.1 entry
  | none => return disk

/-- Brings an entry of the disk back to the file system, unless it was there before. -/
def restore (before : Disk) (entry : Location × Entry) : IO Unit := do
  if before.entry? entry.1 = some entry.2 then return
  let path := "/" ++ "/".intercalate entry.1
  match entry.2 with
  | .directory => IO.FS.createDirAll path
  | .file octets => IO.FS.writeBinFile path ⟨octets.toArray⟩
  | .device _ => return

/-- Shows a text; whether that succeeded. -/
def succeedsToShow (text : String) : IO Bool := do
  try
    let out ← IO.getStdout
    out.putStr text
    out.flush
    return true
  catch _ => return false

/-- Performs what the words of a command line ask for. The exit status is given back. -/
def perform (words : List String) : IO UInt32 := do
  let invocation := Invocation.ofWords words
  let home := (Route.ofPath (← IO.currentDir).toString).names
  let mut disk := Disk.withHome home
  for path in pathsOf invocation do
    for station in stations home path do
      disk ← picture disk station
  let surroundings : Surroundings := { filterText := ← IO.getEnv "RUST_LOG" }
  let mut outcome := invocation.perform surroundings disk
  for entry in outcome.disk.entries do
    restore disk entry
  if !(← succeedsToShow outcome.shown) then
    outcome := invocation.perform { surroundings with whenShown := some .noSpace } disk
  for event in outcome.log do
    IO.eprintln event.line
  for line in outcome.complaint do
    IO.eprintln line
  return outcome.status.toUInt32

end PartyInputs.Program

def main (words : List String) : IO UInt32 := PartyInputs.Program.perform words
