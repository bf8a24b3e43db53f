import PartyInputs.Log.Event
import PartyInputs.Disk.Operations
import PartyInputs.Text.Grouped

/-!
# Overview of a run

What a run produced, for people and as JSON. Collecting it looks at the sizes of the files and
never fails: a file whose size cannot be read goes without one, and that is noted.
-/

namespace PartyInputs

/-- What there is to say about the file of one party. -/
structure PartyFile where
  party : Nat
  path : String
  rows : Nat
  values : Nat
  /-- The number of octets of the file, if it could be read. -/
  size : Option Nat
  deriving DecidableEq, Repr

/-- What a run produced. -/
structure Overview where
  sizes : Sizes Nat
  seed : Int64
  width : Width
  signed : Bool
  interval : Interval
  convolved : Option (Nat × Nat)
  files : List PartyFile
  deriving DecidableEq, Repr

namespace PartyFile

/-- Looks up the size of a file that was written. -/
def collect (file : WrittenFile) (disk : Disk) : PartyFile × List Event :=
  let known size : PartyFile := ⟨file.party, file.path, file.tally.rows, file.tally.values, size⟩
  match disk.size file.path with
  | .ok size => (known (some size), [])
  | .error fault => (known none, [.sizeUnknown file.path fault])

/-- The line that is shown for a file of known size. -/
def line? (f : PartyFile) : Option String :=
  f.size.map fun size =>
    "✔ Wrote Party" ++ Text.Decimal.ofNat f.party ++ ": " ++ f.path ++ "  (" ++
      Text.Grouped.ofNat size ++ " bytes)"

/-- The file in a report. -/
def json (f : PartyFile) : Text.Json :=
  .obj [
    ("party", .nat f.party),
    ("path", .str f.path),
    ("rows", .nat f.rows),
    ("values", .nat f.values),
    ("size_bytes", .ofOption .nat f.size)]

end PartyFile

namespace Overview

/-- The overview of a plan with the given files. -/
def ofPlan (p : Plan) (files : List PartyFile) : Overview where
  sizes := p.sizes
  seed := p.seed
  width := p.width
  signed := p.signed
  interval := p.interval
  convolved := p.sizes.convolved?
  files

/-- The overview of a run from its plan, its receipt and the disk, and what is noted on the way. -/
def collect (p : Plan) (receipt : Receipt) (disk : Disk) : Overview × List Event :=
  let collected := receipt.files.map fun file => PartyFile.collect file disk
  (ofPlan p (collected.map (·.1)), collected.flatMap (·.2))

/-! ## For people -/

/-- The line about the sizes and the interval. -/
def sizesLine (o : Overview) : String :=
  (match o.sizes with
    | .signTest _ => "   "
    | _ => "   Shapes: ") ++
  o.sizes.text ++ "; value range: " ++ o.interval.text

/-- The lines that are shown: one for each file of known size, and one about the sizes. -/
def lines (o : Overview) : List String := o.files.filterMap PartyFile.line? ++ [o.sizesLine]

/-- The lines in one text. -/
def text (o : Overview) : String := "\n".intercalate o.lines

/-! ## As JSON -/

/-- The rows and columns of a convolution in a report. -/
def pairJson (size : Nat × Nat) : Text.Json := .arr [.nat size.1, .nat size.2]

/-- The overview in a report. -/
def json (o : Overview) : Text.Json :=
  .obj [
    ("shape", o.sizes.json),
    ("seed", .int o.seed.toInt),
    ("bits", .nat o.width.bits),
    ("signed", .bool o.signed),
    ("range", o.interval.json),
    ("conv_output", .ofOption pairJson o.convolved),
    ("parties", .arr (o.files.map PartyFile.json))]

end Overview

end PartyInputs
