import PartyInputs.Proofs.Sink.Storing

/-!
# How much a sink takes

A sink that has room for some octets only keeps the first ones of what it is offered, however it
cuts them up and however often it is interrupted: neither the chunks nor the interruptions are seen
in what is stored or in how a piece ends. They are seen in the number of calls alone, and that stays
below twice the number of octets.

* `Medium.kept`, `Medium.HasRoom`, `Medium.fullFault`: **what a medium makes of octets**, said
  without its chunks and its interruptions.
* `Sink.Offered`: a sink that has been offered octets since it was empty.
* `Sink.put_offered`: **one more piece**: it succeeds iff there is room for all that was offered.
* `Sink.calls_put_le`: the calls that a piece takes.
-/

namespace PartyInputs

namespace Medium

/-! ## Room -/

/-- What a medium keeps of octets that are offered to it from the start: the first ones, as many as
it has room for. -/
def kept (m : Medium) (octets : List UInt8) : List UInt8 :=
  match m.limit with
  | none => octets
  | some limit => octets.take limit

/-- The medium has room for `n` octets. -/
def HasRoom (m : Medium) (n : Nat) : Prop := ∀ limit ∈ m.limit, n ≤ limit

instance (m : Medium) (n : Nat) : Decidable (m.HasRoom n) :=
  inferInstanceAs (Decidable (∀ limit ∈ m.limit, n ≤ limit))

/-- How a sink fails that is full: with a fault of its own, or because it took nothing. -/
def fullFault (m : Medium) : Fault := m.whenFull.getD .tookNothing

variable {m : Medium} {octets more : List UInt8} {n k : Nat}

@[simp] theorem kept_nil : m.kept [] = [] := by
  unfold kept
  split
  · rfl
  · exact List.take_nil

theorem HasRoom.mono (h : m.HasRoom n) (hk : k ≤ n) : m.HasRoom k :=
  fun limit hl => Nat.le_trans hk (h limit hl)

/-- Room for all of some octets is room for those in front. -/
theorem HasRoom.of_append (h : m.HasRoom (octets ++ more).length) : m.HasRoom octets.length :=
  h.mono (by rw [List.length_append]; exact Nat.le_add_right ..)

theorem hasRoom_zero : m.HasRoom 0 := fun _ _ => Nat.zero_le _

theorem hasRoom_of_unlimited (h : m.limit = none) (n : Nat) : m.HasRoom n := by
  intro limit hl
  rw [h] at hl
  cases hl

theorem hasRoom_iff_of_limit {limit : Nat} (h : m.limit = some limit) :
    m.HasRoom n ↔ n ≤ limit := by
  unfold HasRoom
  simp [h]

/-- Nothing is lost as long as there is room. -/
theorem kept_of_hasRoom (h : m.HasRoom octets.length) : m.kept octets = octets := by
  unfold kept
  split
  · rfl
  · rename_i limit hl
    exact List.take_of_length_le (h limit hl)

/-- Where there is no room, something is lost. -/
theorem kept_ne_of_not_hasRoom (h : ¬ m.HasRoom octets.length) : m.kept octets ≠ octets := by
  unfold kept
  split
  · rename_i hl
    exact absurd (hasRoom_of_unlimited hl _) h
  · rename_i limit hl
    rw [hasRoom_iff_of_limit hl] at h
    intro htake
    have hlength := congrArg List.length htake
    rw [List.length_take] at hlength
    omega

/-- Once there is no room for another octet, nothing that follows is kept. -/
theorem kept_append_of_full (h : ¬ m.HasRoom (octets.length + 1)) :
    m.kept (octets ++ more) = m.kept octets := by
  unfold kept
  split
  · rename_i hl
    exact absurd (hasRoom_of_unlimited hl _) h
  · rename_i limit hl
    rw [hasRoom_iff_of_limit hl, Nat.not_le, Nat.lt_succ_iff] at h
    exact List.take_append_of_le_length h

/-! ## Media that differ in chunks and interruptions -/

/-- The media have the same room and fail alike when they are full. -/
structure SameRoom (m m' : Medium) : Prop where
  limit : m'.limit = m.limit
  whenFull : m'.whenFull = m.whenFull

namespace SameRoom

variable {m' : Medium}

theorem kept (h : m.SameRoom m') : m'.kept = m.kept := by
  funext octets
  unfold Medium.kept
  rw [h.limit]

theorem hasRoom_iff (h : m.SameRoom m') : m'.HasRoom n ↔ m.HasRoom n := by
  unfold HasRoom
  rw [h.limit]

theorem fullFault (h : m.SameRoom m') : m'.fullFault = m.fullFault := by
  unfold Medium.fullFault
  rw [h.whenFull]

end SameRoom

end Medium

namespace Sink

/-! ## One piece -/

/-- `s` is a sink on the medium `m` that has been offered `octets` since it was empty. -/
structure Offered (s : Sink) (m : Medium) (octets : List UInt8) : Prop where
  medium : s.medium = m
  octets : s.octets = m.kept octets

variable {m : Medium} {s : Sink} {octets more piece : List UInt8}

/-- An empty sink has been offered nothing. -/
theorem offered_empty (m : Medium) : Offered { medium := m } m [] :=
  ⟨rfl, m.kept_nil.symm⟩

/-- A sink without room for another octet is as good as one that was offered more. -/
theorem Offered.append (h : s.Offered m octets) (hfull : ¬ m.HasRoom (octets.length + 1))
    (more : List UInt8) : s.Offered m (octets ++ more) :=
  ⟨h.medium, by rw [h.octets, Medium.kept_append_of_full hfull]⟩

theorem Offered.tick (h : s.Offered m octets) : s.tick.Offered m octets := ⟨h.medium, h.octets⟩

/-- What fits behind what was offered is stored there. -/
theorem Offered.take (h : s.Offered m octets) (hroom : m.HasRoom (octets ++ piece).length) :
    (s.take piece).Offered m (octets ++ piece) := by
  have hbefore : m.HasRoom octets.length := hroom.mono (by simp)
  refine ⟨h.medium, ?_⟩
  rw [(s.gains_take piece).octets, h.octets, Medium.kept_of_hasRoom hbefore,
    Medium.kept_of_hasRoom hroom]

/-- The room that is left behind what was offered. -/
theorem Offered.room_eq (h : s.Offered m octets) :
    s.room = m.limit.map (· - octets.length) := by
  unfold room
  rw [h.medium]
  rcases hl : m.limit with _ | limit
  · rfl
  · have hsize : s.stored.size = min limit octets.length := by
      have hlength := congrArg List.length h.octets
      rw [Medium.kept, hl] at hlength
      simpa [Sink.octets] using hlength
    simp only [Option.map_some, Option.some.injEq, hsize]
    omega

/-- A sink fails only when it has no room for another octet. -/
theorem Offered.of_failure_eq_some (h : s.Offered m octets) (hm : m.chunk ≠ some 0) {length : Nat}
    {fault : Fault} (hpos : 0 < length) (hf : s.failure length = some fault) :
    fault = m.fullFault ∧ ¬ m.HasRoom (octets.length + 1) := by
  have hroom : s.room = some 0 := by
    rcases stuck_of_failure_eq_some hpos hf with hroom | hchunk
    · exact hroom
    · rw [h.medium] at hchunk
      exact absurd hchunk hm
  rw [failure, if_pos hroom, h.medium] at hf
  rw [h.room_eq, Option.map_eq_some_iff] at hroom
  obtain ⟨limit, hl, hfull⟩ := hroom
  refine ⟨(Option.some.inj hf).symm, ?_⟩
  rw [Medium.hasRoom_iff_of_limit hl]
  omega

/-- No more is taken than is offered, and no more than there is room for. -/
theorem intake_le (s : Sink) (length : Nat) :
    s.intake length ≤ length ∧ ∀ room ∈ s.room, s.intake length ≤ room := by
  have hchunk : s.intake length ≤ s.room.elim length (min length) := by
    unfold intake
    rcases s.medium.chunk with _ | c
    · exact Nat.le_refl _
    · exact Nat.min_le_left _ c
  rcases hr : s.room with _ | r
  · rw [hr] at hchunk
    exact ⟨hchunk, by simp⟩
  · rw [hr, Option.elim_some] at hchunk
    refine ⟨Nat.le_trans hchunk (Nat.min_le_left ..), ?_⟩
    intro room hroom
    cases hroom
    exact Nat.le_trans hchunk (Nat.min_le_right ..)

/-- What a sink takes of a piece, it has room for. -/
theorem Offered.hasRoom_intake (h : s.Offered m octets) {length : Nat}
    (hf : s.failure length = none) : m.HasRoom (octets.length + s.intake length) := by
  intro limit hl
  have hroom : s.room = some (limit - octets.length) := by
    rw [h.room_eq, hl, Option.map_some]
  have hle := (s.intake_le length).2 _ hroom
  have hpos := intake_pos_of_failure_eq_none hf
  omega

/-- What is left of a piece, and that may be nothing: then there was room for all that was
offered. -/
theorem put_offered_rest (hm : m.chunk ≠ some 0) (s : Sink) (piece : List UInt8) :
    ∀ octets : List UInt8, s.Offered m octets → piece ≠ [] ∨ m.HasRoom octets.length →
      (s.put piece).1 =
          (if m.HasRoom (octets ++ piece).length then .ok () else .error m.fullFault) ∧
        (s.put piece).2.Offered m (octets ++ piece) := by
  fun_induction put s piece with
  | case1 s =>
    intro octets h hne
    have hroom : m.HasRoom octets.length := hne.resolve_left (by simp)
    rw [List.append_nil, if_pos hroom]
    exact ⟨rfl, h⟩
  | case2 s piece hpiece hi ih =>
    intro octets h hne
    exact ih octets h.tick hne
  | case3 s piece hpiece hi fault hf =>
    intro octets h _
    have hpos : 0 < piece.length := List.length_pos_iff.2 hpiece
    obtain ⟨rfl, hfull⟩ := h.of_failure_eq_some hm hpos hf
    have hno : ¬ m.HasRoom (octets ++ piece).length := by
      intro hroom
      apply hfull
      apply hroom.mono
      rw [List.length_append]
      omega
    rw [if_neg hno]
    exact ⟨rfl, h.tick.append hfull piece⟩
  | case4 s piece hpiece hi hf n ih =>
    intro octets h _
    have hlength : (octets ++ piece.take n).length = octets.length + n := by
      rw [List.length_append, List.length_take, Nat.min_eq_left (s.intake_le _).1]
    have hroom : m.HasRoom (octets ++ piece.take n).length := by
      rw [hlength]
      exact h.hasRoom_intake hf
    have hrest := ih _ (h.take hroom) (.inr hroom)
    rw [List.append_assoc, List.take_append_drop] at hrest
    exact hrest

/-- **One more piece.** It succeeds iff there is room for all that was offered, the piece included;
if not, the sink is full. Whatever happens, what is stored are the first octets of what was
offered. -/
theorem put_offered (h : s.Offered m octets) (hm : m.chunk ≠ some 0) (hne : piece ≠ []) :
    (s.put piece).1 =
        (if m.HasRoom (octets ++ piece).length then .ok () else .error m.fullFault) ∧
      (s.put piece).2.Offered m (octets ++ piece) :=
  put_offered_rest hm s piece octets h (.inl hne)

/-! ## Calls -/

/-- Every call but the last one stores an octet or is interrupted, and no two calls in a row are
interrupted. -/
theorem calls_put_le_of_interruptsNext (s : Sink) (piece : List UInt8) :
    (s.put piece).2.calls ≤ s.calls + (2 * piece.length - 1 + s.interruptsNext.toNat) := by
  fun_induction put s piece with
  | case1 s => exact Nat.le_add_right ..
  | case2 s piece hpiece hi ih =>
    rw [interruptsNext_tick s hi] at ih
    rw [hi]
    simp only [tick, Bool.toNat_false, Bool.toNat_true] at ih ⊢
    omega
  | case3 s piece hpiece hi fault hf =>
    have hpos : 0 < piece.length := List.length_pos_iff.2 hpiece
    simp only [tick]
    omega
  | case4 s piece hpiece hi hf n ih =>
    have hpos : 0 < n := intake_pos_of_failure_eq_none hf
    have hle : n ≤ piece.length := (s.intake_le piece.length).1
    rw [Bool.not_eq_true] at hi
    by_cases hall : n = piece.length
    · -- the piece is used up, so no further call is made
      rw [hall, List.drop_length, put, if_pos rfl]
      simp only [take]
      omega
    · have hnext := Bool.toNat_le (s.take (piece.take n)).interruptsNext
      rw [List.length_drop] at ih
      simp only [take] at ih hnext ⊢
      omega

/-- **A piece takes two calls for each of its octets at most**, so offering it comes to an end. -/
theorem calls_put_le (s : Sink) (piece : List UInt8) :
    (s.put piece).2.calls ≤ s.calls + 2 * piece.length := by
  by_cases hne : piece = []
  · rw [hne, put, if_pos rfl]
    exact Nat.le_add_right ..
  · have h := s.calls_put_le_of_interruptsNext piece
    have hpos : 0 < piece.length := List.length_pos_iff.2 hne
    have hle := Bool.toNat_le s.interruptsNext
    omega

end Sink

end PartyInputs
