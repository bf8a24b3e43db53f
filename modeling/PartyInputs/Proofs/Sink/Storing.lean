import PartyInputs.Sink

/-!
# What a sink holds after a piece was put into it

* `Sink.Gains s octets s'`: **the effect of writing**. The medium is the same and the octets stand
  behind what was stored before. The number of calls is left open: it depends on how the medium
  cuts a piece up, and nothing that is written depends on it.
* `Sink.Stuck`: a sink that takes nothing any more. That is the only way to fail, and it stays so.
* `Sink.put_stops`: putting a piece either gains exactly that piece, or it gains a part of it and
  leaves the sink stuck.
* `Medium.TakesAll`: a medium that never fills up, takes something on every call and can be
  flushed. Chunks of any positive size and interruptions are allowed.
* `Sink.put_cases`: on a medium that takes everything, no piece fails.
-/

namespace PartyInputs

/-- A medium that takes whatever it is offered, in chunks and with interruptions perhaps. -/
structure Medium.TakesAll (m : Medium) : Prop where
  unlimited : m.limit = none
  chunk_ne_zero : m.chunk ≠ some 0
  flushes : m.whenFlushed = none

/-- A plain buffer takes everything. -/
theorem Medium.takesAll_default : Medium.TakesAll {} :=
  ⟨rfl, by simp, rfl⟩

namespace Sink

/-- `s'` is a sink with the medium of `s` that holds `octets` behind what `s` holds. -/
structure Gains (s : Sink) (octets : List UInt8) (s' : Sink) : Prop where
  medium : s'.medium = s.medium
  octets : s'.octets = s.octets ++ octets

namespace Gains

variable {s s' s'' : Sink} {a b : List UInt8}

theorem refl (s : Sink) : s.Gains [] s := ⟨rfl, (List.append_nil _).symm⟩

theorem trans (h : s.Gains a s') (h' : s'.Gains b s'') : s.Gains (a ++ b) s'' := by
  refine ⟨h'.medium.trans h.medium, ?_⟩
  rw [h'.octets, h.octets, List.append_assoc]

/-- A sink that gained something on a medium that takes everything can be written on. -/
theorem takesAll (h : s.Gains a s') (hs : s.medium.TakesAll) : s'.medium.TakesAll := by
  rw [h.medium]; exact hs

end Gains

theorem gains_tick (s : Sink) : s.Gains [] s.tick := ⟨rfl, (List.append_nil _).symm⟩

theorem gains_take (s : Sink) (piece : List UInt8) : s.Gains piece (s.take piece) := by
  refine ⟨rfl, ?_⟩
  simp [take, octets]

/-! ## Sinks that are stuck -/

/-- The sink takes nothing any more: it is full, or it takes nothing on any call. -/
def Stuck (s : Sink) : Prop := s.room = some 0 ∨ s.medium.chunk = some 0

/-- A call succeeds iff the sink is not stuck. -/
theorem failure_eq_none_iff {s : Sink} {length : Nat} (hpos : 0 < length) :
    s.failure length = none ↔ ¬ s.Stuck := by
  -- with room left and chunks that are not empty something is taken
  have hintake : s.room ≠ some 0 → (s.intake length = 0 ↔ s.medium.chunk = some 0) := by
    intro hroom
    have hlength : s.room.elim length (min length) ≠ 0 := by
      rcases hr : s.room with _ | r
      · simp only [Option.elim_none]; omega
      · have hr0 : r ≠ 0 := fun h0 => hroom (by rw [hr, h0])
        simp only [Option.elim_some]; omega
    unfold intake
    rcases s.medium.chunk with _ | c
    · simpa using hlength
    · simp only [Option.elim_some, Option.some.injEq]; omega
  unfold failure Stuck
  by_cases hroom : s.room = some 0
  · simp [hroom]
  · simp [hroom, hintake hroom]

theorem stuck_of_failure_eq_some {s : Sink} {length : Nat} {fault : Fault} (hpos : 0 < length)
    (h : s.failure length = some fault) : s.Stuck := by
  refine Classical.not_not.1 fun hn => ?_
  rw [(failure_eq_none_iff hpos).2 hn] at h
  cases h

/-- Nothing is stored by a sink that is stuck. -/
theorem octets_put_of_stuck {s : Sink} (h : s.Stuck) (piece : List UInt8) :
    (s.put piece).2.octets = s.octets := by
  fun_induction put s piece with
  | case1 s => rfl
  | case2 s piece hne hi ih => exact ih h
  | case3 s piece hne hi fault hf => rfl
  | case4 s piece hne hi hf n ih =>
    exact absurd h ((failure_eq_none_iff (List.length_pos_iff.2 hne)).1 hf)

/-- **A piece is stored as a whole or it fails**: then a part of it is stored, not all, and the sink
is stuck. -/
theorem put_stops (s : Sink) (piece : List UInt8) :
    (∃ s', s.put piece = (.ok (), s') ∧ s.Gains piece s') ∨
      ∃ fault s' part, s.put piece = (.error fault, s') ∧ s.Gains part s' ∧ s'.Stuck ∧
        part <+: piece ∧ part.length < piece.length := by
  fun_induction put s piece with
  | case1 s => exact .inl ⟨s, rfl, .refl s⟩
  | case2 s piece hne hi ih =>
    rcases ih with ⟨s', hput, hg⟩ | ⟨fault, s', part, hput, hg, hstuck, hpart⟩
    · exact .inl ⟨s', hput, s.gains_tick.trans hg⟩
    · exact .inr ⟨fault, s', part, hput, s.gains_tick.trans hg, hstuck, hpart⟩
  | case3 s piece hne hi fault hf =>
    have hpos : 0 < piece.length := List.length_pos_iff.2 hne
    have hstuck : s.Stuck := stuck_of_failure_eq_some hpos hf
    exact .inr ⟨fault, s.tick, [], rfl, s.gains_tick, hstuck, List.nil_prefix, hpos⟩
  | case4 s piece hne hi hf n ih =>
    rcases ih with ⟨s', hput, hg⟩ | ⟨fault, s', part, hput, hg, hstuck, hpre, hlt⟩
    · have h := (s.gains_take (piece.take n)).trans hg
      rw [List.take_append_drop] at h
      exact .inl ⟨s', hput, h⟩
    · refine .inr ⟨fault, s', piece.take n ++ part, hput, (s.gains_take _).trans hg, hstuck, ?_, ?_⟩
      · have h := (List.prefix_append_right_inj (piece.take n)).2 hpre
        rw [List.take_append_drop] at h
        exact h
      · have h := congrArg List.length (List.take_append_drop n piece)
        rw [List.length_append] at h ⊢
        omega

/-! ## Media that take everything -/

/-- A medium that takes everything is never stuck. -/
theorem not_stuck_of_takesAll {s : Sink} (h : s.medium.TakesAll) : ¬ s.Stuck := by
  rintro (hroom | hchunk)
  · simp [room, h.unlimited] at hroom
  · exact h.chunk_ne_zero hchunk

/-- **A piece is stored as a whole or not acknowledged**: putting it either fails, which no medium
that takes everything does, or leaves exactly the piece behind what was there, however the medium
cuts it up. -/
theorem put_cases (s : Sink) (piece : List UInt8) :
    (¬ s.medium.TakesAll ∧ ∃ fault s', s.put piece = (.error fault, s')) ∨
      ∃ s', s.put piece = (.ok (), s') ∧ s.Gains piece s' := by
  rcases s.put_stops piece with hok | ⟨fault, s', part, hput, hg, hstuck, -⟩
  · exact .inr hok
  · exact .inl ⟨fun h => not_stuck_of_takesAll (hg.takesAll h) hstuck, fault, s', hput⟩

end Sink

end PartyInputs
