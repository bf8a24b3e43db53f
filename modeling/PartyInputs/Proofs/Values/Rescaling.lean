import Mathlib.Data.List.Forall2
import PartyInputs.Proofs.Values.Balance

/-!
# Values of several widths

Every value takes one word, whatever the interval is. So streams of one seed stay in step, and values
at the same place were selected by the same word. Without a sign, what a word selects in the interval
of a width are its upper bits: fewer bits are more bits divided by a power of two. A sign moves the
value down by half of the interval.

* `Width.upper`: the upper bits of a word.
* `Interval.toInt_select_ofWidth_false`, `Interval.toInt_select_ofWidth_true`: **what a word selects**
  in the interval of a width.
* `Width.Rescales`: values of two widths, and `Interval.rescales_select`: **those that one word
  selects**.
* `ValueStream.InStep`: streams in step, and `ValueStream.InStep.forall₂_cut`: **rows that are cut
  from them** are related value by value.
-/

namespace PartyInputs

open List (Forall₂)

/-! ## Upper bits -/

namespace Width

/-- The upper bits of a word, as many as the width has. -/
def upper (w : Width) (x : UInt32) : Nat := x.toNat >>> (32 - w.bits)

/-- Fewer of the upper bits are more of them divided by a power of two. -/
theorem upper_eq_div {w w' : Width} (h : w.bits ≤ w'.bits) (x : UInt32) :
    w.upper x = w'.upper x / 2 ^ (w'.bits - w.bits) := by
  have hle := w'.le_31
  have hsum : 32 - w'.bits + (w'.bits - w.bits) = 32 - w.bits := by omega
  rw [upper, upper, ← hsum, Nat.shiftRight_add, Nat.shiftRight_eq_div_pow _ (w'.bits - w.bits)]

end Width

namespace Interval

/-- In the interval of a width the offset that a word selects are its upper bits. -/
theorem offset_ofWidth (w : Width) (signed : Bool) (x : UInt32) :
    (ofWidth w signed).offset x = w.upper x := by
  have hle := w.le_31
  have hpow : 2 ^ 32 = 2 ^ (32 - w.bits) * 2 ^ w.bits := by
    rw [← Nat.pow_add, Nat.sub_add_cancel (by omega)]
  rw [offset, span_ofWidth, Width.upper, Nat.shiftRight_eq_div_pow, hpow,
    Nat.mul_div_mul_right _ _ (Nat.two_pow_pos _)]

/-- **What a word selects** without a sign. -/
theorem toInt_select_ofWidth_false (w : Width) (x : UInt32) :
    ((ofWidth w false).select x).toInt = w.upper x := by
  rw [(narrow_ofWidth w false).toInt_select, offset_ofWidth, (bounds_ofWidth_false w).1,
    Int.zero_add]

/-- **What a word selects** with a sign: the same, less half of the interval. -/
theorem toInt_select_ofWidth_true (w : Width) (x : UInt32) :
    ((ofWidth w true).select x).toInt = w.upper x - 2 ^ (w.bits - 1) := by
  rw [(narrow_ofWidth w true).toInt_select, offset_ofWidth, (bounds_ofWidth_true w).1]
  omega

end Interval

/-! ## Values of two widths -/

namespace Width

/-- A value of a width as it is without a sign. -/
def unsigned (w : Width) (signed : Bool) (v : Int64) : Int :=
  if signed then v.toInt + 2 ^ (w.bits - 1) else v.toInt

/-- Without their signs, the value of fewer bits is the value of more bits divided by a power of two,
rounded down. -/
structure Rescales (w w' : Width) (signed signed' : Bool) (v v' : Int64) : Prop where
  narrower : w.bits ≤ w'.bits →
    w.unsigned signed v = w'.unsigned signed' v' / 2 ^ (w'.bits - w.bits)
  wider : w'.bits ≤ w.bits →
    w'.unsigned signed' v' = w.unsigned signed v / 2 ^ (w.bits - w'.bits)

end Width

namespace Interval

theorem unsigned_select (w : Width) (signed : Bool) (x : UInt32) :
    w.unsigned signed ((ofWidth w signed).select x) = w.upper x := by
  cases signed with
  | false => exact toInt_select_ofWidth_false w x
  | true =>
    show ((ofWidth w true).select x).toInt + 2 ^ (w.bits - 1) = w.upper x
    rw [toInt_select_ofWidth_true, Int.sub_add_cancel]

/-- **Values that one word selects** are rescaled. -/
theorem rescales_select (w w' : Width) (signed signed' : Bool) (x : UInt32) :
    w.Rescales w' signed signed' ((ofWidth w signed).select x) ((ofWidth w' signed').select x) where
  narrower h := by
    rw [unsigned_select, unsigned_select, Width.upper_eq_div h]
    norm_cast
  wider h := by
    rw [unsigned_select, unsigned_select, Width.upper_eq_div h]
    norm_cast

end Interval

/-! ## Streams in step -/

namespace ValueStream

/-- After `n` values the stream of a seed gives what the word at place `n` selects. -/
theorem draw_take_ofSeed (seed : UInt64) (r : Interval) (n : Nat) :
    ((ofSeed seed r).take n).2.draw.1 = r.select ((Key.ofSeed seed).word n) := by
  rw [take_snd, draw_fst, valueAt, position_advance]
  show r.select ((Key.ofSeed seed).word (0 + n)) = _
  rw [Nat.zero_add]

/-- Streams of one key at one position, in intervals where each word selects values that are
related. -/
structure InStep (related : Int64 → Int64 → Prop) (s t : ValueStream) : Prop where
  key : s.key = t.key
  position : s.position = t.position
  select : ∀ x, related (s.interval.select x) (t.interval.select x)

namespace InStep

variable {related : Int64 → Int64 → Prop} {s t : ValueStream}

/-- **A value** takes one word from either stream. -/
theorem draw (h : InStep related s t) : related s.draw.1 t.draw.1 := by
  rw [draw_fst, draw_fst, valueAt, valueAt, h.key, h.position]
  exact h.select _

/-- They stay in step. -/
theorem advance (h : InStep related s t) (n : Nat) : InStep related (s.advance n) (t.advance n) where
  key := h.key
  position := congrArg (· + n) h.position
  select := h.select

/-- **The next values** are related one by one. -/
theorem forall₂_take (n : Nat) : ∀ {s t : ValueStream}, InStep related s t →
    Forall₂ related (s.take n).1 (t.take n).1 := by
  induction n with
  | zero => intro s t _; exact .nil
  | succ n ih =>
    intro s t h
    rw [take_succ, take_succ, draw_snd, draw_snd]
    exact .cons h.draw (ih (h.advance 1))

/-- **Rows of the same widths** are related value by value. -/
theorem forall₂_cut (widths : List Nat) : ∀ {s t : ValueStream}, InStep related s t →
    Forall₂ (Forall₂ related) (s.cut widths) (t.cut widths) := by
  induction widths with
  | nil => intro s t _; exact .nil
  | cons width widths ih =>
    intro s t h
    exact .cons (h.forall₂_take width) (ih (h.advance width))

end InStep

/-- **Streams of one seed** are in step, whatever the widths and the signs are. -/
theorem inStep_ofSeed (seed : UInt64) (w w' : Width) (signed signed' : Bool) :
    InStep (w.Rescales w' signed signed') (ofSeed seed (.ofWidth w signed))
      (ofSeed seed (.ofWidth w' signed')) where
  key := rfl
  position := rfl
  select := Interval.rescales_select w w' signed signed'

end ValueStream

end PartyInputs
