import PartyInputs.Text.Decimal
import PartyInputs.Text.Json

/-!
# Intervals of values

The values of a party file come from a closed interval of 64-bit integers that a number of bits and
a choice of sign determine: `[0, 2^b - 1]` without a sign, `[-2^(b-1), 2^(b-1) - 1]` with one.
-/

namespace PartyInputs

/-- A number of bits per value. With at most 31 of them every value fits into 32 bits. -/
structure Width where
  bits : Nat
  one_le : 1 ≤ bits
  le_31 : bits ≤ 31
  deriving DecidableEq, Repr

namespace Width

/-- The least number of bits. -/
def least : Nat := 1

/-- The greatest number of bits. -/
def greatest : Nat := 31

/-- The width of `bits` bits, if there is one. -/
def ofInt64? (bits : Int64) : Option Width :=
  if h : 1 ≤ bits.toInt.toNat ∧ bits.toInt.toNat ≤ 31 then some ⟨bits.toInt.toNat, h.1, h.2⟩
  else none

/-- The number of bits as a numeral. -/
def text (w : Width) : String := Text.Decimal.ofNat w.bits

end Width

/-- The integers from `lo` to `hi`, both included; none if `hi` is below `lo`. -/
structure Interval where
  lo : Int64
  hi : Int64
  deriving DecidableEq, Repr

namespace Interval

/-- The values of a width, with or without a sign. -/
def ofWidth (w : Width) (signed : Bool) : Interval :=
  if signed then
    let half := Int64.ofNat (1 <<< (w.bits - 1))
    ⟨-half, half - 1⟩
  else ⟨0, Int64.ofNat (1 <<< w.bits) - 1⟩

/-- The number of integers in the interval. The difference is taken as a 64-bit word, so an
inverted interval has an enormous span. -/
def span (r : Interval) : UInt64 := (r.hi - r.lo).toUInt64 + 1

/-- Whether the interval contains `v`. -/
def contains (r : Interval) (v : Int64) : Bool := r.lo ≤ v && v ≤ r.hi

/-- The bounds in brackets. -/
def text (r : Interval) : String :=
  "[" ++ Text.Decimal.ofInt64 r.lo ++ ", " ++ Text.Decimal.ofInt64 r.hi ++ "]"

/-- The bounds in a report. -/
def json (r : Interval) : Text.Json := .obj [("lo", .int r.lo.toInt), ("hi", .int r.hi.toInt)]

theorem contains_iff {r : Interval} {v : Int64} : r.contains v ↔ r.lo ≤ v ∧ v ≤ r.hi := by
  simp [contains]

end Interval

end PartyInputs
