import Mathlib.Algebra.GroupWithZero.Nat
import PartyInputs.Proofs.Table.Writing
import PartyInputs.Values.Stream

/-!
# Drawing many values

A stream is a position in a fixed sequence, so what is drawn in several goes is what would have been
drawn in one go, and the stream behind it is known by counting.

* `ValueStream.take_snd`: drawing `n` values moves on by `n`.
* `ValueStream.take_add`: **two goes are one**: no value is left out and none is drawn twice.
* `ValueStream.cut`: the rows that are drawn for given widths.
* `ValueStream.flatten_cut`: read row after row, they are the values of the stream in its order.
-/

namespace PartyInputs.ValueStream

/-! ## One go and two goes -/

theorem take_succ (s : ValueStream) (n : Nat) :
    s.take (n + 1) = (s.draw.1 :: (s.draw.2.take n).1, (s.draw.2.take n).2) := rfl

/-- What a row draws from a stream are its next values. -/
theorem source_take_eq (n : Nat) : ∀ s : ValueStream, Source.take n s = s.take n := by
  induction n with
  | zero => intro s; rfl
  | succ n ih =>
    intro s
    rw [Source.take_succ, take_succ]
    show ((s.draw).1 :: (Source.take n s.draw.2).1, (Source.take n s.draw.2).2) = _
    rw [ih]

theorem advance_zero (s : ValueStream) : s.advance 0 = s := ext_position rfl rfl rfl

/-- Drawing moves the stream on by as many values as were drawn. -/
theorem take_snd (n : Nat) : ∀ s : ValueStream, (s.take n).2 = s.advance n := by
  induction n with
  | zero => intro s; exact s.advance_zero.symm
  | succ n ih =>
    intro s
    rw [take_succ, ih, draw_snd, advance_advance, Nat.add_comm]

theorem length_take (n : Nat) (s : ValueStream) : (s.take n).1.length = n := by
  rw [← source_take_eq, Source.length_take]

/-- **Two goes are one.** -/
theorem take_add (m n : Nat) : ∀ s : ValueStream,
    (s.take (m + n)).1 = (s.take m).1 ++ ((s.advance m).take n).1 := by
  induction m with
  | zero =>
    intro s
    rw [Nat.zero_add, advance_zero]
    rfl
  | succ m ih =>
    intro s
    rw [Nat.succ_add, take_succ, take_succ, ih, List.cons_append, draw_snd, advance_advance,
      Nat.add_comm 1 m]

/-! ## Rows -/

/-- The rows of the given widths that the stream starts with. -/
def cut : List Nat → ValueStream → List (List Int64)
  | [], _ => []
  | width :: widths, s => (s.take width).1 :: cut widths (s.advance width)

theorem cut_cons (width : Nat) (widths : List Nat) (s : ValueStream) :
    s.cut (width :: widths) = (s.take width).1 :: (s.advance width).cut widths := rfl

/-- Rows have the widths that they were cut to. -/
theorem map_length_cut (widths : List Nat) : ∀ s : ValueStream,
    (s.cut widths).map List.length = widths := by
  induction widths with
  | nil => intro s; rfl
  | cons width widths ih =>
    intro s
    rw [cut_cons, List.map_cons, ih, length_take]

/-- **Rows lose nothing**: read one after the other they are the values that the stream starts
with. -/
theorem flatten_cut (widths : List Nat) : ∀ s : ValueStream,
    (s.cut widths).flatten = (s.take widths.sum).1 := by
  induction widths with
  | nil => intro s; rfl
  | cons width widths ih =>
    intro s
    rw [cut_cons, List.flatten_cons, ih, List.sum_cons, take_add]

end PartyInputs.ValueStream
