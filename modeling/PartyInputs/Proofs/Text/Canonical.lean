import Mathlib.Data.List.Induction
import PartyInputs.Proofs.Text.Numeral

/-!
# Canonical numerals

Of all numerals of an integer exactly one is written. It has no plus sign and no leading zero, and
zero has no sign at all. Here these numerals are described without writing them.

* `Decimal.Canonical`: **the grammar of canonical numerals** with the integer that each stands for.
* `Decimal.encode_digits_digitsValue`: digits without a leading zero are the ones that are written
  for their value.
* `Decimal.canonical_iff`: the canonical numerals are **exactly those that are written**.
-/

namespace PartyInputs.Text.Decimal

/-- Octets are a canonical numeral, and which integer it stands for. -/
inductive Canonical : List UInt8 → Int → Prop where
  | zero : Canonical [0x30] 0
  | positive {d : UInt8} {ds : List UInt8} : IsDigitOctet d → d ≠ 0x30 →
      (∀ o ∈ ds, IsDigitOctet o) → Canonical (d :: ds) (digitsValue (d :: ds))
  | negative {d : UInt8} {ds : List UInt8} : IsDigitOctet d → d ≠ 0x30 →
      (∀ o ∈ ds, IsDigitOctet o) → Canonical (0x2d :: d :: ds) (-digitsValue (d :: ds))

/-! ## One digit more -/

theorem isDigitOctet_iff {o : UInt8} : IsDigitOctet o ↔ 0x30 ≤ o.toNat ∧ o.toNat ≤ 0x39 := by
  unfold IsDigitOctet
  rw [UInt8.le_iff_toNat_le, UInt8.le_iff_toNat_le]
  rfl

/-- A digit is written as its octet. -/
theorem encode_digits_of_isDigitOctet {o : UInt8} (h : IsDigitOctet o) :
    Utf8.encode (digits (o.toNat - 0x30)) = [o] := by
  have hdigit : ∀ n < 10, Utf8.encode (digits n) = [UInt8.ofNat (0x30 + n)] := by decide
  obtain ⟨hlo, hhi⟩ := isDigitOctet_iff.1 h
  rw [hdigit _ (by omega), Nat.add_sub_cancel' hlo, UInt8.ofNat_toNat]

/-- What is written for a number with a digit behind it. -/
theorem encode_digits_append {n d : Nat} (hn : 0 < n) (hd : d < 10) :
    Utf8.encode (digits (10 * n + d)) = Utf8.encode (digits n) ++ Utf8.encode (digits d) := by
  rw [← Utf8.encode_append]
  exact congrArg Utf8.encode (Nat.toDigits_append_toDigits (by decide) hn hd).symm

theorem digitsValue_concat (ds : List UInt8) (o : UInt8) :
    digitsValue (ds ++ [o]) = 10 * digitsValue ds + (o.toNat - 0x30) := by
  simp [digitsValue]

/-! ## Digits and what is written for their value -/

/-- **Digits without a leading zero** are the ones that are written for their value, which is not
zero. -/
theorem encode_digits_digitsValue {d : UInt8} {ds : List UInt8} (hd : IsDigitOctet d)
    (hne : d ≠ 0x30) (hds : ∀ o ∈ ds, IsDigitOctet o) :
    0 < digitsValue (d :: ds) ∧ Utf8.encode (digits (digitsValue (d :: ds))) = d :: ds := by
  induction ds using List.reverseRecOn with
  | nil =>
    have hvalue : digitsValue [d] = d.toNat - 0x30 := by simp [digitsValue]
    rw [hvalue]
    refine ⟨?_, encode_digits_of_isDigitOctet hd⟩
    have hlo := (isDigitOctet_iff.1 hd).1
    have hzero : d.toNat ≠ 0x30 := fun h => hne (UInt8.toNat_inj.1 h)
    omega
  | append_singleton ds o ih =>
    obtain ⟨hpos, hdigits⟩ := ih fun x hx => hds x (List.mem_append_left _ hx)
    have ho : IsDigitOctet o := hds o (by simp)
    have hlt := (isDigitOctet_iff.1 ho).2
    rw [← List.cons_append, digitsValue_concat]
    refine ⟨by omega, ?_⟩
    rw [encode_digits_append hpos (by omega), hdigits, encode_digits_of_isDigitOctet ho]

/-- What is written for a number below ten: one digit. -/
theorem exists_encode_digit_eq {n : Nat} (h : n < 10) :
    ∃ o, Utf8.encode (digits n) = [o] ∧ IsDigitOctet o ∧ o.toNat - 0x30 = n := by
  have htoNat : (UInt8.ofNat (0x30 + n)).toNat = 0x30 + n := by
    rw [UInt8.toNat_ofNat', Nat.mod_eq_of_lt (by omega)]
  have hdigit : IsDigitOctet (UInt8.ofNat (0x30 + n)) := isDigitOctet_iff.2 (by omega)
  have hvalue : (UInt8.ofNat (0x30 + n)).toNat - 0x30 = n := by omega
  have hwritten := encode_digits_of_isDigitOctet hdigit
  rw [hvalue] at hwritten
  exact ⟨_, hwritten, hdigit, hvalue⟩

/-- What is written for a number that is not zero: digits with that value and without a leading
zero. -/
theorem exists_encode_digits_eq {n : Nat} (h : 0 < n) :
    ∃ d ds, Utf8.encode (digits n) = d :: ds ∧ IsDigitOctet d ∧ d ≠ 0x30 ∧
      (∀ o ∈ ds, IsDigitOctet o) ∧ n = digitsValue (d :: ds) := by
  induction n using Nat.strongRecOn with
  | _ n ih =>
    by_cases hlt : n < 10
    · obtain ⟨o, hwritten, hdigit, hvalue⟩ := exists_encode_digit_eq hlt
      refine ⟨o, [], hwritten, hdigit, ?_, by simp, by simp [digitsValue, hvalue]⟩
      rintro rfl
      exact absurd hvalue (Nat.ne_of_lt h)
    · -- the last digit stands behind those of the quotient
      obtain ⟨d, ds, hdigits, hd, hne, hds, hquotient⟩ := ih (n / 10) (by omega) (by omega)
      have hmod : n % 10 < 10 := Nat.mod_lt n (by decide)
      obtain ⟨o, hwritten, hdigit, hvalue⟩ := exists_encode_digit_eq hmod
      refine ⟨d, ds ++ [o], ?_, hd, hne, ?_, ?_⟩
      · rw [← List.cons_append, ← hdigits, ← hwritten, ← encode_digits_append (by omega) hmod,
          Nat.div_add_mod]
      · rw [List.forall_mem_append]
        exact ⟨hds, by simpa using hdigit⟩
      · rw [← List.cons_append, digitsValue_concat, ← hquotient, hvalue, Nat.div_add_mod]

/-! ## What is written for integers -/

theorem numeral_neg {n : Nat} (h : 0 < n) : numeral (-n) = '-' :: digits n := by
  obtain ⟨m, rfl⟩ := Nat.exists_eq_succ_of_ne_zero (Nat.ne_of_gt h)
  rfl

/-- **The canonical numerals are exactly those that are written.** -/
theorem canonical_iff {octets : List UInt8} {i : Int} :
    Canonical octets i ↔ octets = Utf8.encode (numeral i) := by
  constructor
  · intro h
    cases h with
    | zero => decide
    | positive hd hne hds => exact (encode_digits_digitsValue hd hne hds).2.symm
    | negative hd hne hds =>
      obtain ⟨hpos, hdigits⟩ := encode_digits_digitsValue hd hne hds
      rw [numeral_neg hpos, encode_minus_cons, hdigits]
  · rintro rfl
    rcases Int.lt_trichotomy i 0 with hneg | rfl | hpos
    · obtain ⟨n, rfl⟩ := Int.exists_eq_neg_ofNat (Int.le_of_lt hneg)
      have hpos : 0 < n := by omega
      obtain ⟨d, ds, hdigits, hd, hne, hds, hvalue⟩ := exists_encode_digits_eq hpos
      rw [numeral_neg hpos, encode_minus_cons, hdigits, hvalue]
      exact .negative hd hne hds
    · exact .zero
    · obtain ⟨n, rfl⟩ := Int.eq_ofNat_of_zero_le (Int.le_of_lt hpos)
      obtain ⟨d, ds, hdigits, hd, hne, hds, hvalue⟩ :=
        exists_encode_digits_eq (Int.natCast_pos.1 hpos)
      show Canonical (Utf8.encode (digits n)) n
      rw [hdigits, hvalue]
      exact .positive hd hne hds

end PartyInputs.Text.Decimal
