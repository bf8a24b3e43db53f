import PartyInputs.Text.Decimal
import PartyInputs.Text.Quoted

/-!
# Refused requests

Why a request cannot be planned. Each cause carries the values that it is about.
-/

namespace PartyInputs

/-- Why a request was refused. -/
inductive Refusal where
  /-- The number of bits is outside the bounds. -/
  | bitsOutOfBounds (bits : Int64) (least greatest : Nat)
  /-- A size is zero or negative. -/
  | notPositive (name : String) (value : Int64)
  /-- A size is more than an address can hold. -/
  | notAddressable (name : String) (value : Int64)
  /-- The kernel is larger than the matrix that it slides over. -/
  | kernelTooLarge (kernel rows cols : Nat)
  /-- A party has a sheet but no file name. -/
  | nameMissing (party : Nat)
  | nameEmpty (party : Nat)
  /-- A file name does not denote one plain entry of a directory. -/
  | nameNotPlain (party : Nat) (name : String)
  /-- Both parties have the same file. -/
  | nameShared (name : String)
  deriving DecidableEq, Repr

/-- The refusal in words. -/
def Refusal.message : Refusal → String
  | .bitsOutOfBounds bits least greatest =>
    "bits must be between " ++ Text.Decimal.ofNat least ++ " and " ++ Text.Decimal.ofNat greatest ++
      " for practical decimal I/O sizes (got " ++ Text.Decimal.ofInt64 bits ++ ")"
  | .notPositive name value =>
    name ++ " must be positive (got " ++ Text.Decimal.ofInt64 value ++ ")"
  | .notAddressable name value =>
    name ++ "=" ++ Text.Decimal.ofInt64 value ++
      " does not fit in memory addressing on this platform"
  | .kernelTooLarge kernel rows cols =>
    "W_DIM=" ++ Text.Decimal.ofNat kernel ++ " must be <= A_ROWS=" ++ Text.Decimal.ofNat rows ++
      " and <= A_COLS=" ++ Text.Decimal.ofNat cols ++ " (valid conv)"
  | .nameMissing party => "no output file name given for party " ++ Text.Decimal.ofNat party
  | .nameEmpty party => "output file name for party " ++ Text.Decimal.ofNat party ++ " is empty"
  | .nameNotPlain party name =>
    "output file name " ++ Text.Quoted.quote name ++ " for party " ++ Text.Decimal.ofNat party ++
      " must be a plain name inside the output directory"
  | .nameShared name => "party 0 and party 1 would both write to " ++ Text.Quoted.quote name

end PartyInputs
