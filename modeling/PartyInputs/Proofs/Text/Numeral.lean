import Mathlib.Algebra.Group.Int.Defs
import Mathlib.Algebra.Group.Nat.Defs
import PartyInputs.Proofs.Text.Octets
import PartyInputs.Text.Decimal

/-!
# Numerals as octets

What the reader takes for an integer, said of octets: a sign or none, and then digits, of which
there is at least one. Leading zeros are allowed; the number of digits is not bounded, only the value is.

* `Decimal.Denotes`: **the grammar of numerals** with the integer that each stands for, which is
  unique.
* `Decimal.int?_eq_some_iff`: the reader takes exactly these for integers.
* `Decimal.int64?_eq_some_iff`: with the value in the range of 64-bit integers.
-/

namespace PartyInputs.Text.Decimal

/-- Digits as octets. -/
def IsDigitOctet (o : UInt8) : Prop := 0x30 ≤ o ∧ o ≤ 0x39

instance (o : UInt8) : Decidable (IsDigitOctet o) := inferInstanceAs (Decidable (_ ∧ _))

/-- The number that digits stand for. -/
def digitsValue (ds : List UInt8) : Nat := ds.foldl (fun n o => 10 * n + (o.toNat - 0x30)) 0

/-- Octets are a numeral, and which integer it stands for. -/
inductive Denotes : List UInt8 → Int → Prop where
  | unsigned {ds : List UInt8} : ds ≠ [] → (∀ o ∈ ds, IsDigitOctet o) → Denotes ds (digitsValue ds)
  | plus {ds : List UInt8} : ds ≠ [] → (∀ o ∈ ds, IsDigitOctet o) →
      Denotes (0x2b :: ds) (digitsValue ds)
  | minus {ds : List UInt8} : ds ≠ [] → (∀ o ∈ ds, IsDigitOctet o) →
      Denotes (0x2d :: ds) (-digitsValue ds)

/-- **A numeral stands for one integer.** -/
theorem Denotes.unique {octets : List UInt8} {i j : Int} (h : Denotes octets i)
    (h' : Denotes octets j) : i = j := by
  have hplus : ¬ IsDigitOctet 0x2b := by decide
  have hminus : ¬ IsDigitOctet 0x2d := by decide
  cases h with
  | unsigned _ hds =>
    cases h' with
    | unsigned => rfl
    | plus => exact absurd (hds _ List.mem_cons_self) hplus
    | minus => exact absurd (hds _ List.mem_cons_self) hminus
  | plus =>
    cases h' with
    | unsigned _ hds => exact absurd (hds _ List.mem_cons_self) hplus
    | plus => rfl
  | minus =>
    cases h' with
    | unsigned _ hds => exact absurd (hds _ List.mem_cons_self) hminus
    | minus => rfl

/-! ## Digits -/

theorem asciiClass_isDigit : Utf8.AsciiClass Char.isDigit (fun o => decide (IsDigitOctet o)) where
  agree := by decide
  char := by
    intro c hc
    refine Bool.eq_false_iff.2 fun h => ?_
    have hle : c.toNat ≤ 57 := by
      simp only [Char.isDigit, Bool.and_eq_true, decide_eq_true_eq] at h
      exact h.2
    omega
  octet := by
    intro o ho
    rw [decide_eq_false_iff_not]
    rintro ⟨-, h⟩
    have := UInt8.le_iff_toNat_le.1 h
    simp only [UInt8.reduceToNat] at this
    omega

theorem lt_of_isDigit {c : Char} (h : c.isDigit) : c.toNat < 0x80 := by
  rcases Nat.lt_or_ge c.toNat 0x80 with hlt | hge
  · exact hlt
  · rw [asciiClass_isDigit.char c hge] at h
    cases h

/-- A number below a power of ten has no more digits than the exponent says. -/
theorem length_encode_digits_le {n k : Nat} (hk : 0 < k) (h : n < 10 ^ k) :
    (Utf8.encode (digits n)).length ≤ k := by
  have hascii : ∀ c ∈ digits n, c.toNat < 0x80 :=
    fun c hc => lt_of_isDigit (isDigit_of_mem_digits hc)
  rw [Utf8.length_encode_of_ascii hascii]
  exact (Nat.length_toDigits_le_iff (by decide) hk).2 h

/-- Digits have the same value as characters and as octets. -/
theorem ofDigitChars_eq_foldl_encode (cs : List Char) (h : ∀ c ∈ cs, c.isDigit) :
    ∀ n, Nat.ofDigitChars 10 cs n =
      (Utf8.encode cs).foldl (fun n o => 10 * n + (o.toNat - 0x30)) n := by
  induction cs with
  | nil => intro n; rfl
  | cons c cs ih =>
    intro n
    have hc : c.toNat < 0x80 := lt_of_isDigit (h c List.mem_cons_self)
    rw [Nat.ofDigitChars_cons, ih fun c hc => h c (List.mem_cons_of_mem _ hc), Utf8.encode_cons,
      Utf8.encodeChar_of_ascii hc, List.singleton_append, List.foldl_cons, UInt8.toNat_ofNat',
      Nat.mod_eq_of_lt (by omega)]
    rfl

/-- The reader of natural numbers takes exactly the non-empty runs of digits. -/
theorem nat?_eq_some_iff {cs : List Char} {n : Nat} :
    nat? cs = some n ↔
      Utf8.encode cs ≠ [] ∧ (∀ o ∈ Utf8.encode cs, IsDigitOctet o) ∧
        n = digitsValue (Utf8.encode cs) := by
  have hall : (∀ o ∈ Utf8.encode cs, IsDigitOctet o) ↔ cs.all Char.isDigit := by
    rw [← asciiClass_isDigit.all_encode cs]
    simp
  rw [ne_eq, Utf8.encode_eq_nil_iff, hall]
  unfold nat?
  by_cases h : cs ≠ [] ∧ cs.all Char.isDigit
  · rw [if_pos h, ofDigitChars_eq_foldl_encode cs (List.all_eq_true.1 h.2)]
    simp only [Option.some.injEq, h, true_and, not_false_eq_true, digitsValue]
    exact eq_comm
  · rw [if_neg h]
    simp only [reduceCtorEq, false_iff]
    exact fun ⟨hne, hdigits, _⟩ => h ⟨hne, hdigits⟩

/-! ## Signs -/

theorem encode_plus_cons (cs : List Char) : Utf8.encode ('+' :: cs) = 0x2b :: Utf8.encode cs := rfl

theorem encode_minus_cons (cs : List Char) : Utf8.encode ('-' :: cs) = 0x2d :: Utf8.encode cs := rfl

theorem int?_minus_cons (cs : List Char) :
    int? ('-' :: cs) = (nat? cs).map fun n : Nat => -(n : Int) := by
  rw [int?]
  rcases nat? cs with _ | n <;> rfl

theorem int?_plus_cons (cs : List Char) : int? ('+' :: cs) = (nat? cs).map Int.ofNat := rfl

/-- Without a sign in front an integer is read as a natural number. -/
theorem int?_of_head?_ne {cs : List Char} (hminus : cs.head? ≠ some '-')
    (hplus : cs.head? ≠ some '+') : int? cs = (nat? cs).map Int.ofNat := by
  unfold int?
  split
  · simp at hminus
  · simp at hplus
  · rfl

/-- Digits have no sign in front of them. -/
theorem head?_ne_of_digits {cs : List Char} (h : ∀ o ∈ Utf8.encode cs, IsDigitOctet o) :
    cs.head? ≠ some '-' ∧ cs.head? ≠ some '+' := by
  rcases cs with _ | ⟨c, cs⟩
  · simp
  · refine ⟨?_, ?_⟩
    · rintro hc
      cases hc
      have := h 0x2d (by rw [encode_minus_cons]; exact List.mem_cons_self)
      revert this
      decide
    · rintro hc
      cases hc
      have := h 0x2b (by rw [encode_plus_cons]; exact List.mem_cons_self)
      revert this
      decide

/-- **The reader of integers takes exactly the numerals**, each for the integer that it stands
for. -/
theorem int?_eq_some_iff {cs : List Char} {i : Int} :
    int? cs = some i ↔ Denotes (Utf8.encode cs) i := by
  constructor
  · intro h
    by_cases hminus : cs.head? = some '-'
    · obtain ⟨rest, rfl⟩ := List.head?_eq_some_iff.1 hminus
      rw [int?_minus_cons] at h
      obtain ⟨n, hn, rfl⟩ := Option.map_eq_some_iff.1 h
      obtain ⟨hne, hd, rfl⟩ := nat?_eq_some_iff.1 hn
      exact .minus hne hd
    · by_cases hplus : cs.head? = some '+'
      · obtain ⟨rest, rfl⟩ := List.head?_eq_some_iff.1 hplus
        rw [int?_plus_cons] at h
        obtain ⟨n, hn, rfl⟩ := Option.map_eq_some_iff.1 h
        obtain ⟨hne, hd, rfl⟩ := nat?_eq_some_iff.1 hn
        exact .plus hne hd
      · rw [int?_of_head?_ne hminus hplus] at h
        obtain ⟨n, hn, rfl⟩ := Option.map_eq_some_iff.1 h
        obtain ⟨hne, hd, rfl⟩ := nat?_eq_some_iff.1 hn
        exact .unsigned hne hd
  · intro h
    generalize ho : Utf8.encode cs = octets at h
    cases h with
    | unsigned hne hd =>
      subst ho
      obtain ⟨hminus, hplus⟩ := head?_ne_of_digits hd
      rw [int?_of_head?_ne hminus hplus, nat?_eq_some_iff.2 ⟨hne, hd, rfl⟩]
      rfl
    | plus hne hd =>
      obtain ⟨rest, rfl, rfl⟩ := Utf8.exists_cons_of_encode_eq_cons (by decide) ho
      show int? ('+' :: rest) = _
      rw [int?_plus_cons, nat?_eq_some_iff.2 ⟨hne, hd, rfl⟩]
      rfl
    | minus hne hd =>
      obtain ⟨rest, rfl, rfl⟩ := Utf8.exists_cons_of_encode_eq_cons (by decide) ho
      show int? ('-' :: rest) = _
      rw [int?_minus_cons, nat?_eq_some_iff.2 ⟨hne, hd, rfl⟩]
      rfl

/-! ## 64 bits -/

theorem fitsInt64_iff {i : Int} : FitsInt64 i ↔ -2 ^ 63 ≤ i ∧ i ≤ 2 ^ 63 - 1 := by
  unfold FitsInt64
  rw [show Int64.minValue.toInt = -2 ^ 63 by decide,
    show Int64.maxValue.toInt = 2 ^ 63 - 1 by decide]

/-- An integer in range is the value of the 64-bit integer that it is brought to. -/
theorem toInt_ofInt_of_fitsInt64 {i : Int} (h : FitsInt64 i) : (Int64.ofInt i).toInt = i := by
  obtain ⟨hlo, hhi⟩ := fitsInt64_iff.1 h
  exact Int64.toInt_ofInt_of_le hlo (by omega)

/-- The reader of 64-bit integers takes the numerals whose value is in range. -/
theorem int64?_eq_some_iff {cs : List Char} {v : Int64} :
    int64? cs = some v ↔ Denotes (Utf8.encode cs) v.toInt := by
  rw [← int?_eq_some_iff, int64?, Option.bind_eq_some_iff]
  constructor
  · rintro ⟨i, hi, hv⟩
    split at hv
    · rename_i hfits
      cases hv
      rw [hi, toInt_ofInt_of_fitsInt64 hfits]
    · cases hv
  · intro h
    refine ⟨v.toInt, h, ?_⟩
    rw [if_pos (fitsInt64_toInt v), Int64.ofInt_toInt]

/-- Octets are the numeral of a 64-bit integer iff they are a numeral with its value in range. -/
theorem exists_denotes_toInt_iff {octets : List UInt8} :
    (∃ v : Int64, Denotes octets v.toInt) ↔
      ∃ i, Denotes octets i ∧ -2 ^ 63 ≤ i ∧ i ≤ 2 ^ 63 - 1 := by
  constructor
  · rintro ⟨v, h⟩
    exact ⟨v.toInt, h, fitsInt64_iff.1 (fitsInt64_toInt v)⟩
  · rintro ⟨i, h, hi⟩
    refine ⟨Int64.ofInt i, ?_⟩
    rw [toInt_ofInt_of_fitsInt64 (fitsInt64_iff.2 hi)]
    exact h

end PartyInputs.Text.Decimal
