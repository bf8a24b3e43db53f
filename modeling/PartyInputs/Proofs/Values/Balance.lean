import Mathlib.Algebra.Order.Floor.Div
import Mathlib.Order.Interval.Finset.Nat
import Mathlib.SetTheory.Cardinal.Finite
import PartyInputs.Proofs.Values.Selecting

/-!
# How often a value is selected

A word `x` selects the value that is `x * span / 2^32` above the lower bound. So the words of one
value are those between two multiples of `2^32`, divided by the span, and their number is the
difference of two quotients that are rounded up. It is `2^32 / span`, rounded down or up, whichever
value is meant. The span of a width divides `2^32`, and then nothing is rounded.

* `card_words_between`: the words between two numbers.
* `ceilDiv_step_eq`: **from one multiple to the next a quotient grows alike**, up to rounding.
* `Interval.Narrow.select_eq_iff`: the words that select a value.
* `Interval.Narrow.card_select_eq`, `Interval.card_select_ofWidth`: **their number**, for any
  interval that is narrow and for that of a width.
* `Interval.Narrow.select_balanced`: selecting neither wraps nor leaves the interval; it is
  monotone, reaches every value, and does so equally often up to rounding.
-/

namespace PartyInputs

/-! ## Words between two numbers -/

/-- The words from `a` on and below `b` are the numbers from `a` on and below `b`. -/
def wordsBetween (a b : Nat) (hb : b ≤ UInt32.size) :
    {x : UInt32 // a ≤ x.toNat ∧ x.toNat < b} ≃ Finset.Ico a b where
  toFun x := ⟨x.val.toNat, Finset.mem_Ico.2 x.property⟩
  invFun n := ⟨UInt32.ofNat n.val, by
    have hn := Finset.mem_Ico.1 n.property
    rw [UInt32.toNat_ofNat_of_lt' (Nat.lt_of_lt_of_le hn.2 hb)]
    exact hn⟩
  left_inv x := Subtype.ext UInt32.ofNat_toNat
  right_inv n := by
    have hn := Finset.mem_Ico.1 n.property
    exact Subtype.ext (UInt32.toNat_ofNat_of_lt' (Nat.lt_of_lt_of_le hn.2 hb))

theorem card_words_between (a : Nat) {b : Nat} (hb : b ≤ UInt32.size) :
    Nat.card {x : UInt32 // a ≤ x.toNat ∧ x.toNat < b} = b - a := by
  rw [Nat.card_congr (wordsBetween a b hb), Nat.card_eq_finsetCard, Nat.card_Ico]

/-! ## Quotients that are rounded up -/

section

variable {s : Nat} (hs : 0 < s)

include hs

/-- The numbers whose product with `s` lies between two multiples of `n` that follow each other. -/
theorem mul_div_eq_iff {n k x : Nat} (hn : 0 < n) :
    x * s / n = k ↔ k * n ⌈/⌉ s ≤ x ∧ x < (k + 1) * n ⌈/⌉ s := by
  rw [ceilDiv_le_iff_le_mul hs, ← not_le, ceilDiv_le_iff_le_mul hs, not_le, Nat.mul_comm s x]
  constructor
  · rintro rfl
    refine ⟨Nat.div_mul_le_self .., ?_⟩
    rw [Nat.mul_comm _ n]
    exact Nat.lt_mul_div_succ _ hn
  · rintro ⟨hle, hlt⟩
    exact Nat.div_eq_of_lt_le hle hlt

theorem le_mul_ceilDiv (n : Nat) : n ≤ s * (n ⌈/⌉ s) := (ceilDiv_le_iff_le_mul hs).1 le_rfl

theorem ceilDiv_step_le (n k : Nat) : (k + 1) * n ⌈/⌉ s - k * n ⌈/⌉ s ≤ n ⌈/⌉ s := by
  rw [Nat.sub_le_iff_le_add, ceilDiv_le_iff_le_mul hs, Nat.succ_mul, Nat.mul_add]
  have hone := le_mul_ceilDiv hs n
  have hlow := le_mul_ceilDiv hs (k * n)
  omega

theorem div_le_ceilDiv_step (n k : Nat) : n / s ≤ (k + 1) * n ⌈/⌉ s - k * n ⌈/⌉ s := by
  have hone := Nat.mul_div_le n s
  have hhigh := le_mul_ceilDiv hs ((k + 1) * n)
  rw [Nat.succ_mul] at hhigh ⊢
  have hfits : n / s ≤ (k * n + n) ⌈/⌉ s := by
    apply Nat.le_of_mul_le_mul_left _ hs
    omega
  have hlow : k * n ⌈/⌉ s ≤ (k * n + n) ⌈/⌉ s - n / s := by
    rw [ceilDiv_le_iff_le_mul hs, Nat.mul_sub]
    omega
  omega

/-- **From one multiple of `n` to the next** the quotient grows by that of `n`, rounded down or
up. -/
theorem ceilDiv_step_eq (n k : Nat) :
    (k + 1) * n ⌈/⌉ s - k * n ⌈/⌉ s = n / s ∨ (k + 1) * n ⌈/⌉ s - k * n ⌈/⌉ s = n ⌈/⌉ s := by
  have hle := ceilDiv_step_le hs n k
  have hge := div_le_ceilDiv_step hs n k
  have hup : n ⌈/⌉ s ≤ n / s + 1 :=
    (ceilDiv_le_iff_le_mul hs).2 (Nat.le_of_lt (Nat.lt_mul_div_succ n hs))
  omega

/-- Without a remainder there is nothing to round. -/
theorem ceilDiv_eq_div_of_dvd {n : Nat} (h : s ∣ n) : n ⌈/⌉ s = n / s := by
  apply Nat.le_antisymm
  · rw [ceilDiv_le_iff_le_mul hs, Nat.mul_div_cancel' h]
  · rw [Nat.div_le_iff_le_mul_add_pred hs]
    have := le_mul_ceilDiv hs n
    omega

end

namespace Interval

/-! ## The words of a value -/

/-- How far a value stands above the lower bound. -/
def height (r : Interval) (v : Int64) : Nat := (v.toInt - r.lo.toInt).toNat

namespace Narrow

variable {r : Interval} (h : r.Narrow)

include h

theorem height_lt {v : Int64} (hv : r.contains v) : r.height v < r.span.toNat := by
  have hspan := h.span_eq
  rw [contains_iff, Int64.le_iff_toInt_le, Int64.le_iff_toInt_le] at hv
  unfold height
  omega

/-- A word selects a value iff its offset is the height of the value. -/
theorem select_eq_iff {v : Int64} (hv : r.contains v) (x : UInt32) :
    r.select x = v ↔
      r.height v * 2 ^ 32 ⌈/⌉ r.span.toNat ≤ x.toNat ∧
        x.toNat < (r.height v + 1) * 2 ^ 32 ⌈/⌉ r.span.toNat := by
  have hvalue := h.toInt_select x
  rw [contains_iff, Int64.le_iff_toInt_le] at hv
  rw [← mul_div_eq_iff h.span_pos (by decide), ← Int64.toInt_inj, hvalue]
  show _ ↔ r.offset x = r.height v
  unfold height
  omega

/-- **The number of words that select a value.** -/
theorem card_select {v : Int64} (hv : r.contains v) :
    Nat.card {x : UInt32 // r.select x = v} =
      (r.height v + 1) * 2 ^ 32 ⌈/⌉ r.span.toNat - r.height v * 2 ^ 32 ⌈/⌉ r.span.toNat := by
  have hlast : (r.height v + 1) * 2 ^ 32 ⌈/⌉ r.span.toNat ≤ UInt32.size := by
    rw [ceilDiv_le_iff_le_mul h.span_pos]
    exact Nat.mul_le_mul_right _ (h.height_lt hv)
  rw [Nat.card_congr (Equiv.subtypeEquivRight (h.select_eq_iff hv)), card_words_between _ hlast]

/-- **Every value is selected by as many words as any other**, up to rounding. -/
theorem card_select_eq {v : Int64} (hv : r.contains v) :
    Nat.card {x : UInt32 // r.select x = v} = 2 ^ 32 / r.span.toNat ∨
      Nat.card {x : UInt32 // r.select x = v} = 2 ^ 32 ⌈/⌉ r.span.toNat := by
  rw [h.card_select hv]
  exact ceilDiv_step_eq h.span_pos _ _

/-- Every value is selected by some word, since there are at least as many words as values. -/
theorem exists_select_eq {v : Int64} (hv : r.contains v) : ∃ x, r.select x = v := by
  have hsome : 0 < Nat.card {x : UInt32 // r.select x = v} := by
    rw [h.card_select hv]
    refine Nat.lt_of_lt_of_le ?_ (div_le_ceilDiv_step h.span_pos _ _)
    exact Nat.div_pos h.span_le h.span_pos
  obtain ⟨⟨x, hx⟩⟩ := (Nat.card_pos_iff.1 hsome).1
  exact ⟨x, hx⟩

/-- A larger word does not select a smaller value. -/
theorem select_mono {x y : UInt32} (hxy : x ≤ y) : r.select x ≤ r.select y := by
  have hoffset : r.offset x ≤ r.offset y :=
    Nat.div_le_div_right (Nat.mul_le_mul_right _ (UInt32.le_iff_toNat_le.1 hxy))
  rw [Int64.le_iff_toInt_le, h.toInt_select, h.toInt_select]
  omega

end Narrow

/-! ## The values of a width -/

/-- There are as many values of a width as it has bit patterns. -/
theorem span_ofWidth (w : Width) (signed : Bool) : (ofWidth w signed).span.toNat = 2 ^ w.bits := by
  have hspan := (narrow_ofWidth w signed).span_eq
  apply Int.ofNat_inj.1
  rw [hspan, Int.natCast_pow]
  cases signed with
  | false =>
    obtain ⟨hlo, hhi⟩ := bounds_ofWidth_false w
    rw [hlo, hhi]
    show (2 : Int) ^ w.bits - 1 - 0 + 1 = 2 ^ w.bits
    omega
  | true =>
    obtain ⟨hlo, hhi⟩ := bounds_ofWidth_true w
    have hbits : w.bits - 1 + 1 = w.bits := Nat.sub_add_cancel w.one_le
    have hpow : (2 : Int) ^ w.bits = 2 ^ (w.bits - 1) * 2 := by
      calc (2 : Int) ^ w.bits = 2 ^ (w.bits - 1 + 1) := by rw [hbits]
        _ = 2 ^ (w.bits - 1) * 2 := Int.pow_succ ..
    rw [hlo, hhi]
    show (2 : Int) ^ (w.bits - 1) - 1 - -2 ^ (w.bits - 1) + 1 = 2 ^ w.bits
    omega

/-- **Every value of a width is selected by equally many words.** -/
theorem card_select_ofWidth (w : Width) (signed : Bool) {v : Int64}
    (hv : (ofWidth w signed).contains v) :
    Nat.card {x : UInt32 // (ofWidth w signed).select x = v} =
      2 ^ 32 / (ofWidth w signed).span.toNat := by
  have hnarrow := narrow_ofWidth w signed
  have hdvd : (ofWidth w signed).span.toNat ∣ 2 ^ 32 := by
    rw [span_ofWidth]
    exact Nat.pow_dvd_pow 2 (Nat.le_trans w.le_31 (by decide))
  rcases hnarrow.card_select_eq hv with hcard | hcard
  · exact hcard
  · rw [hcard, ceilDiv_eq_div_of_dvd hnarrow.span_pos hdvd]

/-- **Selecting is balanced.** In an interval that holds something and no more integers than there
are words, the difference of the bounds, the product and the sum are what they are as numbers, and
what is selected is in the interval. A larger word does not select a smaller value; each value is
selected; and it is selected by `2^32 / span` words, rounded down or up. In the interval of a width
there is nothing to round. -/
theorem Narrow.select_balanced {r : Interval} (h : r.Narrow) :
    -- no step wraps
    ((r.hi - r.lo).toInt = r.hi.toInt - r.lo.toInt ∧
      (r.span.toNat : Int) = r.hi.toInt - r.lo.toInt + 1) ∧
    (∀ x : UInt32,
      (x.toUInt64 * r.span).toNat = x.toNat * r.span.toNat ∧ x.toNat * r.span.toNat < 2 ^ 64 ∧
      ((x.toUInt64 * r.span) >>> 32).toNat = r.offset x ∧ r.offset x < r.span.toNat ∧
      (r.select x).toInt = r.lo.toInt + r.offset x ∧ r.contains (r.select x)) ∧
    -- order and range
    (∀ x y, x ≤ y → r.select x ≤ r.select y) ∧
    (∀ v, r.contains v → ∃ x, r.select x = v) ∧
    -- balance
    (∀ v, r.contains v →
      Nat.card {x : UInt32 // r.select x = v} = 2 ^ 32 / r.span.toNat ∨
        Nat.card {x : UInt32 // r.select x = v} = 2 ^ 32 ⌈/⌉ r.span.toNat) ∧
    ∀ w signed, r = ofWidth w signed → r.span.toNat = 2 ^ w.bits ∧
      ∀ v, r.contains v → Nat.card {x : UInt32 // r.select x = v} = 2 ^ 32 / r.span.toNat := by
  have hle := Int64.le_iff_toInt_le.1 h.nonempty
  have hlt := h.narrow
  refine ⟨⟨toInt_sub_of_fits (by omega) (by omega), h.span_eq⟩, ?_, fun x y => h.select_mono,
    fun v => h.exists_select_eq, fun v => h.card_select_eq, ?_⟩
  · intro x
    obtain ⟨hword, hproduct, hshift⟩ := h.product_eq x
    exact ⟨hword, hproduct, hshift, h.offset_lt x, h.toInt_select x, h.contains_select x⟩
  · rintro w signed rfl
    exact ⟨span_ofWidth w signed, fun v => card_select_ofWidth w signed⟩

/-- Three values around zero: the largest word selects the greatest of them, and the one in the
middle is selected by a third of all words, rounded down or up. -/
theorem Narrow.select_balanced_three :
    let r : Interval := ⟨-1, 1⟩
    r.Narrow ∧ r.span = 3 ∧ (r.select 0xffffffff).toInt = -1 + r.offset 0xffffffff ∧
      r.offset 0xffffffff = 2 ∧
      (Nat.card {x : UInt32 // r.select x = 0} = 1431655765 ∨
        Nat.card {x : UInt32 // r.select x = 0} = 1431655766) := by
  intro r
  have hnarrow : r.Narrow := ⟨by decide, by decide⟩
  obtain ⟨-, hwords, -, -, hcard, -⟩ := Narrow.select_balanced hnarrow
  obtain ⟨-, -, -, -, hvalue, -⟩ := hwords 0xffffffff
  have hspan : r.span = 3 := by decide
  have hzero := hcard 0 (by decide)
  rw [hspan, Nat.ceilDiv_eq_add_pred_div] at hzero
  exact ⟨hnarrow, hspan, hvalue, by decide, hzero⟩

end Interval

end PartyInputs
