import PartyInputs.Text.Decimal
import PartyInputs.Text.Json
import PartyInputs.Workload.Sheet

/-!
# Workloads and their sizes

Three computations take their inputs from party files: a sign test on a vector of party 0, a valid
convolution of a matrix of party 0 by a square kernel of party 1, and a linear layer `W x + b` with
`x` from party 0, `W` and `b` from party 1. The sizes of a workload determine the sheet of each
party. Sizes are given as 64-bit integers and are natural numbers once they are accepted, so their
type is a parameter.
-/

namespace PartyInputs

/-- The computation that party files are for. -/
inductive Workload where
  | signTest
  | convolution
  | linearLayer
  deriving DecidableEq, Repr

namespace Workload

/-- The short name of a workload in commands and reports. -/
def name : Workload → String
  | .signTest => "ltz"
  | .convolution => "conv"
  | .linearLayer => "linear"

/-- The number of parties that have a file. -/
def partyCount : Workload → Nat
  | .signTest => 1
  | .convolution | .linearLayer => 2

/-- Whether values have a sign if nothing is said about it: a sign test needs negative values. -/
def signedByDefault : Workload → Bool
  | .signTest => true
  | .convolution | .linearLayer => false

end Workload

/-- The sizes of a workload: the length of the vector; the rows and columns of the matrix and the
side of the kernel; the width of the layer. -/
inductive Sizes (α : Type) where
  | signTest (length : α)
  | convolution (rows cols kernel : α)
  | linearLayer (n : α)
  deriving DecidableEq, Repr

namespace Sizes

variable {α : Type}

/-- The workload that the sizes belong to. -/
def workload : Sizes α → Workload
  | signTest _ => .signTest
  | convolution .. => .convolution
  | linearLayer _ => .linearLayer

/-- The rows and columns that a kernel sliding over a matrix can take; `none` without a kernel. -/
def convolved? : Sizes Nat → Option (Nat × Nat)
  | convolution rows cols kernel => some (rows - kernel + 1, cols - kernel + 1)
  | _ => none

/-- The sheets of the parties, in the order in which they are filled. -/
def sheets : Sizes Nat → List Sheet
  | signTest length => [⟨0, [⟨length, 1⟩]⟩]
  | convolution rows cols kernel => [⟨0, [⟨rows, cols⟩]⟩, ⟨1, [⟨kernel, kernel⟩]⟩]
  | linearLayer n => [⟨0, [⟨1, n⟩]⟩, ⟨1, [⟨n, n⟩, ⟨1, n⟩]⟩]

/-- The text of a matrix of `rows` by `cols`. -/
def byText (rows cols : Nat) : String :=
  Text.Decimal.ofNat rows ++ "x" ++ Text.Decimal.ofNat cols

/-- The sizes in words. -/
def text : Sizes Nat → String
  | signTest length => "LEN=" ++ Text.Decimal.ofNat length
  | convolution rows cols kernel =>
    "A=" ++ byText rows cols ++ ", W=" ++ byText kernel kernel ++
      ", out=" ++ byText (rows - kernel + 1) (cols - kernel + 1)
  | linearLayer n =>
    "x=" ++ Text.Decimal.ofNat n ++ ", W=" ++ byText n n ++ ", b=" ++ Text.Decimal.ofNat n

/-- The sizes in a report, after the name of their workload. -/
def json : Sizes Nat → Text.Json
  | signTest length => .obj [("scenario", .str "ltz"), ("len", .nat length)]
  | convolution rows cols kernel =>
    .obj [("scenario", .str "conv"), ("a_rows", .nat rows), ("a_cols", .nat cols),
      ("w_dim", .nat kernel)]
  | linearLayer n => .obj [("scenario", .str "linear"), ("n", .nat n)]

end Sizes

end PartyInputs
