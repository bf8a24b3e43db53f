import PartyInputs.Table.Transcript
import PartyInputs.Values.Interval
import PartyInputs.Values.Keystream

/-!
# Streams of values

A stream turns the words of a keystream into values of an interval, one word for each value: the
word is multiplied by the span, and the upper half of the product is the offset from the lower
bound. A stream is its seed, its interval and its position; the block that the position falls into
is kept beside them so that it is computed once for sixteen values.

## Main statements

* `draw_fst`, `draw_snd`: drawing gives the value at the position and moves on by one.
-/

namespace PartyInputs

namespace Interval

/-- The value that a word of the keystream selects. -/
def select (r : Interval) (x : UInt32) : Int64 := r.lo + ((x.toUInt64 * r.span) >>> 32).toInt64

end Interval

/-- A position in the sequence of values that a seed and an interval determine. -/
structure ValueStream where
  key : Key
  interval : Interval
  position : Nat
  /-- The block of the keystream that the position falls into. -/
  block : Block
  block_eq : block = key.block (UInt64.ofNat (position / 16)) := by rfl

namespace ValueStream

/-- The stream with the given key and interval at the given position. -/
def startingAt (key : Key) (interval : Interval) (position : Nat) : ValueStream where
  key
  interval
  position
  block := key.block (UInt64.ofNat (position / 16))

/-- The stream of a seed from its start. -/
def ofSeed (seed : UInt64) (interval : Interval) : ValueStream :=
  startingAt (Key.ofSeed seed) interval 0

/-- The value at a position, counted from the start of the stream. -/
def valueAt (s : ValueStream) (position : Nat) : Int64 :=
  s.interval.select (s.key.word position)

/-- The stream `n` values further on. -/
def advance (s : ValueStream) (n : Nat) : ValueStream :=
  startingAt s.key s.interval (s.position + n)

/-- The stream one value further on. The block is kept until its last word is used. -/
def tail (s : ValueStream) : ValueStream :=
  if h : (s.position + 1) % 16 = 0 then s.advance 1
  else
    { s with
      position := s.position + 1
      block_eq := by
        rw [s.block_eq, show (s.position + 1) / 16 = s.position / 16 by omega] }

/-- The next value and the stream behind it. -/
def draw (s : ValueStream) : Int64 × ValueStream :=
  (s.interval.select (s.block.get (Block.wordIndex s.position)), s.tail)

instance : Source ValueStream := ⟨draw⟩

/-- The next `n` values and the stream behind them. -/
def take (s : ValueStream) : Nat → List Int64 × ValueStream
  | 0 => ([], s)
  | n + 1 =>
    let (v, s) := s.draw
    let (vs, s) := s.take n
    (v :: vs, s)

/-- Bounds on the number of values to come: the largest number that an address can hold from below,
and none from above, since a stream never ends. -/
def sizeHint (_ : ValueStream) : Nat × Option Nat := (UInt64.size - 1, none)

/-! ## Positions -/

theorem draw_fst (s : ValueStream) : s.draw.1 = s.valueAt s.position := by
  simp only [draw, valueAt, Key.word, s.block_eq]

/-- Two streams with the same key, interval and position are the same. -/
theorem ext_position {s t : ValueStream} (hk : s.key = t.key) (hi : s.interval = t.interval)
    (hp : s.position = t.position) : s = t := by
  obtain ⟨k, i, p, b, hb⟩ := s
  obtain ⟨k', i', p', b', hb'⟩ := t
  simp only at hk hi hp
  subst hk hi hp hb hb'
  rfl

theorem tail_eq_advance (s : ValueStream) : s.tail = s.advance 1 := by
  unfold tail
  split
  · rfl
  · exact ext_position rfl rfl rfl

theorem draw_snd (s : ValueStream) : s.draw.2 = s.advance 1 := s.tail_eq_advance

@[simp] theorem key_advance (s : ValueStream) (n : Nat) : (s.advance n).key = s.key := rfl

@[simp] theorem interval_advance (s : ValueStream) (n : Nat) :
    (s.advance n).interval = s.interval := rfl

@[simp] theorem position_advance (s : ValueStream) (n : Nat) :
    (s.advance n).position = s.position + n := rfl

theorem advance_advance (s : ValueStream) (m n : Nat) :
    (s.advance m).advance n = s.advance (m + n) :=
  ext_position rfl rfl (Nat.add_assoc ..)

end ValueStream

end PartyInputs
