/-!
# Decimal numerals

Integers are written in base ten: no leading zeros, no sign but a leading `-`. Reading is more
liberal than writing: a `+` is allowed and leading zeros are skipped over. Both sides work on lists
of characters; the `String` forms are for messages and reports.

## Main statements

* `nat?_digits`, `int?_numeral`: a written numeral is read back.
* `int64?_numeral`: the same for 64-bit integers, both ends of their range included.
-/

namespace PartyInputs.Text.Decimal

/-! ## Writing -/

/-- The digits of a natural number, most significant first. -/
def digits (n : Nat) : List Char := Nat.toDigits 10 n

/-- The numeral of an integer. -/
def numeral : Int → List Char
  | .ofNat n => digits n
  | .negSucc n => '-' :: digits (n + 1)

/-- The numeral of a natural number, as a string. -/
def ofNat (n : Nat) : String := String.ofList (digits n)

/-- The numeral of an integer, as a string. -/
def ofInt (i : Int) : String := String.ofList (numeral i)

/-- The numeral of a 64-bit integer, as a string. -/
def ofInt64 (i : Int64) : String := ofInt i.toInt

/-! ## Reading -/

/-- The number that a non-empty run of digits stands for. -/
def nat? (cs : List Char) : Option Nat :=
  if cs ≠ [] ∧ cs.all Char.isDigit then some (Nat.ofDigitChars 10 cs 0) else none

/-- The integer that an optional sign and a non-empty run of digits stand for. -/
def int? : List Char → Option Int
  | '-' :: cs => (nat? cs).map fun n => -(n : Int)
  | '+' :: cs => (nat? cs).map Int.ofNat
  | cs => (nat? cs).map Int.ofNat

/-- Whether a 64-bit integer can hold `i`. -/
def FitsInt64 (i : Int) : Prop := Int64.minValue.toInt ≤ i ∧ i ≤ Int64.maxValue.toInt

instance (i : Int) : Decidable (FitsInt64 i) := inferInstanceAs (Decidable (_ ∧ _))

/-- The 64-bit integer that the numeral stands for; `none` also when it does not fit. -/
def int64? (cs : List Char) : Option Int64 :=
  (int? cs).bind fun i => if FitsInt64 i then some (Int64.ofInt i) else none

/-! ## Writing, then reading -/

theorem digits_ne_nil (n : Nat) : digits n ≠ [] := Nat.toDigits_ne_nil

theorem numeral_ne_nil (i : Int) : numeral i ≠ [] := by
  cases i with
  | ofNat n => exact digits_ne_nil n
  | negSucc n => simp [numeral]

/-- Only digits are written for a natural number. -/
theorem isDigit_of_mem_digits {n : Nat} {c : Char} (h : c ∈ digits n) : c.isDigit :=
  Nat.isDigit_of_mem_toDigits (by decide) (by decide) h

theorem nat?_digits (n : Nat) : nat? (digits n) = some n := by
  have hall : (digits n).all Char.isDigit := by
    rw [List.all_eq_true]; exact fun c hc => isDigit_of_mem_digits hc
  simp only [nat?, ne_eq, digits_ne_nil, not_false_eq_true, hall, and_self, if_true]
  rw [digits, Nat.ofDigitChars_ten_toDigits]

/-- A run that starts with a digit carries no sign. -/
theorem int?_of_isDigit {c : Char} {cs : List Char} (h : c.isDigit) :
    int? (c :: cs) = (nat? (c :: cs)).map Int.ofNat := by
  unfold int?
  split
  · simp_all
  · simp_all
  · rfl

theorem int?_digits (n : Nat) : int? (digits n) = some (n : Int) := by
  rcases hd : digits n with _ | ⟨c, cs⟩
  · exact absurd hd (digits_ne_nil n)
  · have hc : c.isDigit := isDigit_of_mem_digits (n := n) (by simp [hd])
    rw [int?_of_isDigit hc, ← hd, nat?_digits]; rfl

theorem int?_numeral (i : Int) : int? (numeral i) = some i := by
  cases i with
  | ofNat n => exact int?_digits n
  | negSucc n => simp only [numeral, int?, nat?_digits]; rfl

theorem fitsInt64_toInt (v : Int64) : FitsInt64 v.toInt :=
  ⟨v.minValue_le_toInt, v.toInt_le⟩

/-- Every 64-bit integer is read back from its numeral. -/
theorem int64?_numeral (v : Int64) : int64? (numeral v.toInt) = some v := by
  simp [int64?, int?_numeral, fitsInt64_toInt]

end PartyInputs.Text.Decimal
