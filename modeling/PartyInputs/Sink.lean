import PartyInputs.Fault

/-!
# Sinks

A sink stores octets that are offered to it, call by call. It may take less than it is offered, be
full, or be interrupted; `Sink.put` goes on until a piece is stored as a whole or the sink fails.

An interrupted call is simply repeated. A sink that is interrupted on every call would never get
anywhere, so a period of interruptions is at least two; that is what makes `Sink.put` end.
-/

namespace PartyInputs

/-- How a sink deals with what it is offered. -/
structure Medium where
  /-- The number of octets it has room for; `none` if it never fills up. -/
  limit : Option Nat := none
  /-- The largest number of octets it takes in one call; `none` if it takes any number. -/
  chunk : Option Nat := none
  /-- How a full sink fails; `none` if it takes nothing and reports no fault. -/
  whenFull : Option Fault := none
  /-- Each call with a number divisible by the period is interrupted. -/
  period : Option { k : Nat // 2 ≤ k } := none
  /-- How flushing fails; `none` if it succeeds. -/
  whenFlushed : Option Fault := none

/-- A medium together with what it holds. -/
structure Sink where
  medium : Medium := {}
  /-- The octets taken so far. -/
  stored : Array UInt8 := #[]
  /-- The number of calls so far. -/
  calls : Nat := 0

namespace Sink

/-- The octets that the sink holds. -/
def octets (s : Sink) : List UInt8 := s.stored.toList

/-- Whether the next call is interrupted. -/
def interruptsNext (s : Sink) : Bool :=
  match s.medium.period with
  | none => false
  | some k => (s.calls + 1) % k.val = 0

/-- The room that is left; `none` if there is no limit. -/
def room (s : Sink) : Option Nat := s.medium.limit.map (· - s.stored.size)

/-- The number of octets that a call takes when `length` are offered and it is not interrupted. -/
def intake (s : Sink) (length : Nat) : Nat :=
  let length := s.room.elim length (min length)
  s.medium.chunk.elim length (min length)

/-- The sink after a call that stored nothing. -/
def tick (s : Sink) : Sink := { s with calls := s.calls + 1 }

/-- The sink after a call that stored `piece`. -/
def take (s : Sink) (piece : List UInt8) : Sink :=
  { s with stored := s.stored ++ piece, calls := s.calls + 1 }

/-- How a call fails that is not interrupted; `none` if it takes something. -/
def failure (s : Sink) (length : Nat) : Option Fault :=
  if s.room = some 0 then some (s.medium.whenFull.getD .tookNothing)
  else if s.intake length = 0 then some .tookNothing
  else none

/-- A period of at least two never interrupts two calls in a row. -/
theorem interruptsNext_tick (s : Sink) (h : s.interruptsNext) : s.tick.interruptsNext = false := by
  unfold interruptsNext at h ⊢
  unfold tick
  rcases hp : s.medium.period with _ | ⟨k, hk⟩
  · simp [hp] at h
  · simp only [hp, decide_eq_true_eq] at h
    simp only [decide_eq_false_iff_not]
    rw [Nat.add_mod, h, Nat.zero_add, Nat.mod_mod, Nat.mod_eq_of_lt (by omega : 1 < k)]
    omega

theorem intake_pos_of_failure_eq_none {s : Sink} {length : Nat} (h : s.failure length = none) :
    0 < s.intake length := by
  unfold failure at h
  split at h
  · cases h
  · split at h
    · cases h
    · omega

/-- Offers a piece until it is stored as a whole or the sink fails. -/
def put (s : Sink) (piece : List UInt8) : Except Fault Unit × Sink :=
  if piece = [] then (.ok (), s)
  else if s.interruptsNext then put s.tick piece
  else match _h : s.failure piece.length with
    | some fault => (.error fault, s.tick)
    | none =>
      let n := s.intake piece.length
      put (s.take (piece.take n)) (piece.drop n)
termination_by 2 * piece.length + s.interruptsNext.toNat
decreasing_by
  · rename_i hi
    simp [interruptsNext_tick s hi, hi]
  · have hpos := intake_pos_of_failure_eq_none _h
    have hne : piece.length ≠ 0 := by simp_all
    have hle := Bool.toNat_le ((s.take (piece.take (s.intake piece.length))).interruptsNext)
    simp only [List.length_drop]
    omega

/-- Makes sure that what was stored is kept. -/
def flush (s : Sink) : Except Fault Unit :=
  match s.medium.whenFlushed with
  | none => .ok ()
  | some fault => .error fault

end Sink

end PartyInputs
