import Mathlib.Algebra.Group.Int.Defs
import PartyInputs.Proofs.Values.Drawing

/-!
# Selecting values

A word of the keystream selects a value of an interval: it is multiplied by the span, and the upper
half of the product is the offset from the lower bound. In an interval of at most `2^32` integers
none of these steps overflows, so the offset is `x * span / 2^32` as a number.

* `Interval.Narrow`: the intervals that are meant, and `Interval.narrow_ofWidth`: **those of a width
  are among them**.
* `Interval.Narrow.product_eq`: the product and its upper half, and
  `Interval.Narrow.toInt_select`: **the value that a word selects**.
* `Interval.Narrow.contains_select`: **it is in the interval**.
* `Interval.bounds_ofWidth_false`, `Interval.bounds_ofWidth_true`: the bounds as powers of two.
* `ValueStream.contains_of_mem_take`: so is everything that a stream gives.
-/

namespace PartyInputs

/-! ## Words as numbers -/

/-- A word below the sign bit is the same number with a sign and without. -/
theorem toInt_toInt64_of_lt {u : UInt64} (h : u.toNat < 2 ^ 63) : u.toInt64.toInt = u.toNat := by
  have hword := Int64.toInt_ofNat_of_lt h
  rw [← UInt64.toInt64_ofNat', UInt64.ofNat_toNat] at hword
  exact hword

/-- A word that is not negative is the same number without a sign and with one. -/
theorem toNat_toUInt64_of_nonneg {v : Int64} (h : 0 ≤ v.toInt) :
    (v.toUInt64.toNat : Int) = v.toInt := by
  have hle : 0 ≤ v := by
    rw [Int64.le_iff_toInt_le, Int64.toInt_zero]
    exact h
  rw [Int64.toNat_toUInt64_of_le hle]
  exact Int.toNat_of_nonneg h

theorem toInt_sub_of_fits {v w : Int64} (hlo : -2 ^ 63 ≤ v.toInt - w.toInt)
    (hhi : v.toInt - w.toInt < 2 ^ 63) : (v - w).toInt = v.toInt - w.toInt := by
  rw [Int64.toInt_sub, Int.bmod_eq_of_le]
  · omega
  · omega

theorem toInt_add_of_fits {v w : Int64} (hlo : -2 ^ 63 ≤ v.toInt + w.toInt)
    (hhi : v.toInt + w.toInt < 2 ^ 63) : (v + w).toInt = v.toInt + w.toInt := by
  rw [Int64.toInt_add, Int.bmod_eq_of_le]
  · omega
  · omega

namespace Interval

/-! ## Narrow intervals -/

/-- The interval holds something, but no more integers than there are words of 32 bits. -/
structure Narrow (r : Interval) : Prop where
  nonempty : r.lo ≤ r.hi
  narrow : r.hi.toInt - r.lo.toInt < 2 ^ 32

/-- The span of a narrow interval is the number of its integers. -/
theorem Narrow.span_eq {r : Interval} (h : r.Narrow) :
    (r.span.toNat : Int) = r.hi.toInt - r.lo.toInt + 1 := by
  have hle := Int64.le_iff_toInt_le.1 h.nonempty
  have hlt := h.narrow
  have hsub : (r.hi - r.lo).toInt = r.hi.toInt - r.lo.toInt :=
    toInt_sub_of_fits (by omega) (by omega)
  have hword : ((r.hi - r.lo).toUInt64.toNat : Int) = r.hi.toInt - r.lo.toInt := by
    rw [toNat_toUInt64_of_nonneg (by omega), hsub]
  rw [span, UInt64.toNat_add, UInt64.toNat_one]
  omega

theorem Narrow.span_pos {r : Interval} (h : r.Narrow) : 0 < r.span.toNat := by
  have hspan := h.span_eq
  have hle := Int64.le_iff_toInt_le.1 h.nonempty
  omega

theorem Narrow.span_le {r : Interval} (h : r.Narrow) : r.span.toNat ≤ 2 ^ 32 := by
  have hspan := h.span_eq
  have hlt := h.narrow
  omega

/-- The offset that a word selects, as a number. -/
def offset (r : Interval) (x : UInt32) : Nat := x.toNat * r.span.toNat / 2 ^ 32

/-- An offset stays below the span, since a word stays below `2^32`. -/
theorem Narrow.offset_lt {r : Interval} (h : r.Narrow) (x : UInt32) : r.offset x < r.span.toNat := by
  unfold offset
  rw [Nat.div_lt_iff_lt_mul (by decide), Nat.mul_comm]
  exact Nat.mul_lt_mul_of_pos_left x.toNat_lt h.span_pos

/-- Neither the product nor its upper half wraps. -/
theorem Narrow.product_eq {r : Interval} (h : r.Narrow) (x : UInt32) :
    (x.toUInt64 * r.span).toNat = x.toNat * r.span.toNat ∧ x.toNat * r.span.toNat < 2 ^ 64 ∧
      ((x.toUInt64 * r.span) >>> 32).toNat = r.offset x := by
  have hproduct : x.toNat * r.span.toNat < 2 ^ 64 := by
    calc x.toNat * r.span.toNat
        ≤ x.toNat * 2 ^ 32 := Nat.mul_le_mul_left _ h.span_le
      _ < 2 ^ 32 * 2 ^ 32 := Nat.mul_lt_mul_of_pos_right x.toNat_lt (by decide)
  have hword : (x.toUInt64 * r.span).toNat = x.toNat * r.span.toNat := by
    rw [UInt64.toNat_mul, UInt32.toNat_toUInt64, Nat.mod_eq_of_lt hproduct]
  refine ⟨hword, hproduct, ?_⟩
  rw [UInt64.toNat_shiftRight, hword]
  exact Nat.shiftRight_eq_div_pow ..

/-- **The value that a word selects**, without any wrap. -/
theorem Narrow.toInt_select {r : Interval} (h : r.Narrow) (x : UInt32) :
    (r.select x).toInt = r.lo.toInt + r.offset x := by
  have hspan := h.span_eq
  have hoffset := h.offset_lt x
  have hlt := h.narrow
  obtain ⟨-, -, hshift⟩ := h.product_eq x
  have hword : ((x.toUInt64 * r.span) >>> 32).toInt64.toInt = r.offset x := by
    rw [toInt_toInt64_of_lt (by omega), hshift]
  have hlo := r.lo.le_toInt
  have hhi := r.hi.toInt_lt
  rw [select, toInt_add_of_fits]
  · rw [hword]
  · omega
  · omega

/-- **A word selects a value of the interval.** -/
theorem Narrow.contains_select {r : Interval} (h : r.Narrow) (x : UInt32) :
    r.contains (r.select x) := by
  have hvalue := h.toInt_select x
  have hoffset := h.offset_lt x
  have hspan := h.span_eq
  rw [contains_iff, Int64.le_iff_toInt_le, Int64.le_iff_toInt_le]
  omega

/-! ## The intervals of a width -/

/-- Powers of two that a width can lead to. -/
theorem two_pow_bounds {n : Nat} (h : n ≤ 31) : 0 < (2 : Int) ^ n ∧ (2 : Int) ^ n ≤ 2 ^ 31 :=
  ⟨Int.pow_pos (by decide), by exact_mod_cast Nat.pow_le_pow_right (by decide) h⟩

theorem toInt_ofNat_shiftLeft {n : Nat} (h : n ≤ 31) : (Int64.ofNat (1 <<< n)).toInt = 2 ^ n := by
  have hlt : 2 ^ n < 2 ^ 63 := Nat.pow_lt_pow_right (by decide) (by omega)
  rw [Nat.one_shiftLeft, Int64.toInt_ofNat_of_lt hlt, Int.natCast_pow]
  rfl

theorem toInt_ofNat_shiftLeft_sub_one {n : Nat} (h : n ≤ 31) :
    (Int64.ofNat (1 <<< n) - 1).toInt = 2 ^ n - 1 := by
  have hpow := toInt_ofNat_shiftLeft h
  obtain ⟨hpos, hle⟩ := two_pow_bounds h
  rw [toInt_sub_of_fits, hpow, Int64.toInt_one]
  · rw [hpow, Int64.toInt_one]
    omega
  · rw [hpow, Int64.toInt_one]
    omega

theorem toInt_neg_ofNat_shiftLeft {n : Nat} (h : n ≤ 31) :
    (-Int64.ofNat (1 <<< n)).toInt = -2 ^ n := by
  have hlt : 2 ^ n ≤ 2 ^ 63 := Nat.pow_le_pow_right (by decide) (by omega)
  rw [Nat.one_shiftLeft, Int64.toInt_neg_ofNat_of_le hlt, Int.natCast_pow]
  rfl

/-- **The bounds of a width** without a sign. -/
theorem bounds_ofWidth_false (w : Width) :
    (ofWidth w false).lo.toInt = 0 ∧ (ofWidth w false).hi.toInt = 2 ^ w.bits - 1 :=
  ⟨rfl, toInt_ofNat_shiftLeft_sub_one w.le_31⟩

/-- **The bounds of a width** with a sign. -/
theorem bounds_ofWidth_true (w : Width) :
    (ofWidth w true).lo.toInt = -2 ^ (w.bits - 1) ∧
      (ofWidth w true).hi.toInt = 2 ^ (w.bits - 1) - 1 := by
  have hw : w.bits - 1 ≤ 31 := Nat.le_trans (Nat.sub_le ..) w.le_31
  exact ⟨toInt_neg_ofNat_shiftLeft hw, toInt_ofNat_shiftLeft_sub_one hw⟩

/-- **The intervals of a width are narrow.** -/
theorem narrow_ofWidth (w : Width) (signed : Bool) : (ofWidth w signed).Narrow := by
  have hw := w.le_31
  cases signed with
  | false =>
    obtain ⟨hlo, hhi⟩ := bounds_ofWidth_false w
    obtain ⟨hpos, hle⟩ := two_pow_bounds hw
    refine ⟨Int64.le_iff_toInt_le.2 ?_, ?_⟩
    · omega
    · omega
  | true =>
    obtain ⟨hlo, hhi⟩ := bounds_ofWidth_true w
    obtain ⟨hpos, hle⟩ := two_pow_bounds (n := w.bits - 1) (by omega)
    refine ⟨Int64.le_iff_toInt_le.2 ?_, ?_⟩
    · omega
    · omega

end Interval

namespace ValueStream

/-! ## What a stream gives -/

/-- Each value that a stream gives is one that a word selects. -/
theorem exists_select_of_mem_take (n : Nat) : ∀ {s : ValueStream} {v : Int64},
    v ∈ (s.take n).1 → ∃ x, v = s.interval.select x := by
  induction n with
  | zero =>
    intro s v h
    cases h
  | succ n ih =>
    intro s v h
    rw [take_succ] at h
    rcases List.mem_cons.1 h with rfl | h
    · exact ⟨_, rfl⟩
    · obtain ⟨x, rfl⟩ := ih h
      rw [draw_snd]
      exact ⟨x, rfl⟩

/-- **A stream stays in its interval.** -/
theorem contains_of_mem_take {s : ValueStream} (hs : s.interval.Narrow) {n : Nat} {v : Int64}
    (h : v ∈ (s.take n).1) : s.interval.contains v := by
  obtain ⟨x, rfl⟩ := exists_select_of_mem_take n h
  exact hs.contains_select x

end ValueStream

end PartyInputs
