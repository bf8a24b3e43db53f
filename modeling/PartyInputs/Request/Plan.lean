import PartyInputs.Request.FileName
import PartyInputs.Workload.Sizes

/-!
# Requests and plans

A request says what files are wanted: a workload with its sizes, the bits and the sign of the
values, a seed, and where the files go. Planning checks it without touching anything: first the
bits, then the sizes in order, then the kernel, then the file names of the parties that have a
sheet. The first check that fails decides the refusal.
-/

namespace PartyInputs

/-- Where the files of the parties go. -/
structure Destination where
  directory : String := "Player-Data"
  /-- The file name of party 0. -/
  first : String := "Input-P0-0"
  /-- The file name of party 1, if one is given. A workload of one party takes no notice of it. -/
  second : Option String := some "Input-P1-0"
  deriving DecidableEq, Repr

/-- What files are wanted. -/
structure Request where
  sizes : Sizes Int64
  bits : Int64 := 16
  /-- Whether values have a sign; `none` leaves it to the workload. -/
  signed : Option Bool := none
  seed : Int64 := 42
  destination : Destination := {}
  deriving DecidableEq, Repr

/-- A request that passed every check, with all choices made. -/
structure Plan where
  sizes : Sizes Nat
  width : Width
  signed : Bool
  seed : Int64
  destination : Destination
  deriving DecidableEq, Repr

/-! ## Checks -/

namespace Width

/-- The width asked for. -/
def accept (bits : Int64) : Except Refusal Width :=
  match ofInt64? bits with
  | some width => .ok width
  | none => .error (.bitsOutOfBounds bits least greatest)

end Width

namespace Sizes

/-- The largest size that an address can hold. -/
def addressLimit : Nat := UInt64.size - 1

/-- One size: positive, and small enough to be addressed. -/
def acceptOne (name : String) (value : Int64) : Except Refusal Nat :=
  if value ≤ 0 then .error (.notPositive name value)
  else if addressLimit < value.toInt.toNat then .error (.notAddressable name value)
  else .ok value.toInt.toNat

/-- The sizes asked for. -/
def accept : Sizes Int64 → Except Refusal (Sizes Nat)
  | signTest length => do return signTest (← acceptOne "LEN" length)
  | convolution rows cols kernel => do
    let rows ← acceptOne "A_ROWS" rows
    let cols ← acceptOne "A_COLS" cols
    let kernel ← acceptOne "W_DIM" kernel
    if kernel > rows ∨ kernel > cols then throw (.kernelTooLarge kernel rows cols)
    return convolution rows cols kernel
  | linearLayer n => do return linearLayer (← acceptOne "n" n)

end Sizes

namespace Destination

/-- The destination asked for, with each name brought to the entry that it denotes. A workload of
one party has no second name. -/
def accept (d : Destination) (workload : Workload) : Except Refusal Destination := do
  let first ← FileName.accept 0 d.first
  if workload.partyCount < 2 then return { d with first, second := none }
  match d.second with
  | none => throw (.nameMissing 1)
  | some second =>
    let second ← FileName.accept 1 second
    if second = first then throw (.nameShared second)
    return { d with first, second := some second }

/-- The path of the entry `name` of a directory. An empty directory is the one we are in. -/
def pathOf (directory name : String) : String :=
  if directory = "" ∨ directory.toList.getLast? = some '/' then directory ++ name
  else directory ++ "/" ++ name

/-- The paths of the parties' files, party 0 first. -/
def paths (d : Destination) : List String :=
  (d.first :: d.second.toList).map (pathOf d.directory)

end Destination

/-- Checks a request and makes the choices that it leaves open. -/
def Request.plan (r : Request) : Except Refusal Plan := do
  let width ← Width.accept r.bits
  let sizes ← r.sizes.accept
  let destination ← r.destination.accept sizes.workload
  return {
    sizes, width, destination
    signed := r.signed.getD sizes.workload.signedByDefault
    seed := r.seed }

namespace Plan

/-- The workload that is planned for. -/
def workload (p : Plan) : Workload := p.sizes.workload

/-- The interval that values are drawn from. -/
def interval (p : Plan) : Interval := .ofWidth p.width p.signed

/-- The seed of the stream: a negative seed stands for the word with the same bits. -/
def streamSeed (p : Plan) : UInt64 := p.seed.toUInt64

/-- The stream that the sheets are filled from. -/
def stream (p : Plan) : ValueStream := .ofSeed p.streamSeed p.interval

/-- The sheets of the parties, party 0 first. -/
def sheets (p : Plan) : List Sheet := p.sizes.sheets

/-- The paths of the parties' files, party 0 first. -/
def paths (p : Plan) : List String := p.destination.paths

end Plan

end PartyInputs
