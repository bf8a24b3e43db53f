import PartyInputs.Proofs.Sink.Limits
import PartyInputs.Proofs.Table.RoundTrip

/-!
# Rows on a medium that may fill up

Rows are tried one after the other, the later ones also when an earlier one failed. What is offered
to the sink is then not the encoding of the rows: a row that fails is given up at the piece that did
not fit. But from that piece on the sink is full, and a full sink cannot tell what it was not
offered from what it had no room for. So the sink counts as one that was offered all rows, and this
invariant carries the induction over the values of a row and the one over rows.

* `Transcript.continueRow_offered`, `Transcript.writeRow_offered`: **a row** ends well iff there is
  room for it and for everything in front of it.
* `Transcript.writeEach_offered`: **a list of rows**.
* `Transcript.Alike`: transcripts on media that differ in chunks and interruptions only; rows
  keep them alike.
* `Transcript.writeEach_limited`: what rows leave in a sink with limited room.
-/

namespace PartyInputs.Transcript

variable {m : Medium} {t : Transcript} {octets : List UInt8}

/-! ## Pieces -/

/-- `t'` is what `t` becomes when `piece` is offered to its sink behind `octets`, in two calls for
each octet at most. -/
structure Offers (m : Medium) (octets : List UInt8) (t : Transcript) (piece : List UInt8)
    (t' : Transcript) : Prop where
  offered : t'.sink.Offered m (octets ++ piece)
  calls : t'.sink.calls ≤ t.sink.calls + 2 * piece.length

namespace Offers

variable {t' t'' : Transcript} {piece more : List UInt8}

theorem refl (h : t.sink.Offered m octets) : Offers m octets t [] t :=
  ⟨by rw [List.append_nil]; exact h, Nat.le_add_right ..⟩

theorem trans (h : Offers m octets t piece t') (h' : Offers m (octets ++ piece) t' more t'') :
    Offers m octets t (piece ++ more) t'' := by
  refine ⟨by rw [← List.append_assoc]; exact h'.offered, ?_⟩
  have hcalls := h.calls
  have hcalls' := h'.calls
  rw [List.length_append]
  omega

/-- A sink that is full counts as one that was offered whatever follows. -/
theorem of_full (h : Offers m octets t piece t') (hfull : ¬ m.HasRoom (octets ++ piece).length)
    (more : List UInt8) : Offers m octets t (piece ++ more) t' := by
  refine ⟨?_, ?_⟩
  · rw [← List.append_assoc]
    apply h.offered.append
    exact fun hroom => hfull (hroom.mono (Nat.le_succ _))
  · have hcalls := h.calls
    rw [List.length_append]
    omega

end Offers

/-- A piece is stored if there is room for all that was offered, or else the sink is full. -/
theorem put_offered_cases (h : t.sink.Offered m octets) (hm : m.chunk ≠ some 0)
    {piece : List UInt8} (hne : piece ≠ []) :
    (m.HasRoom (octets ++ piece).length ∧
        ∃ t', t.put piece = (.ok (), t') ∧ Offers m octets t piece t') ∨
      (¬ m.HasRoom (octets ++ piece).length ∧
        ∃ t', t.put piece = (.error m.fullFault, t') ∧ Offers m octets t piece t') := by
  obtain ⟨hresult, hoffered⟩ := Sink.put_offered h hm hne
  have hcalls := t.sink.calls_put_le piece
  unfold put
  rcases hput : t.sink.put piece with ⟨result, s⟩
  rw [hput] at hresult hoffered hcalls
  by_cases hroom : m.HasRoom (octets ++ piece).length
  · rw [if_pos hroom] at hresult
    cases hresult
    exact .inl ⟨hroom, _, rfl, hoffered, hcalls⟩
  · rw [if_neg hroom] at hresult
    cases hresult
    exact .inr ⟨hroom, _, rfl, hoffered, hcalls⟩

theorem encodeValue_ne_nil (v : Int64) : encodeValue v ≠ [] :=
  fun h => Text.Decimal.numeral_ne_nil _ (Text.Utf8.encode_eq_nil_iff.1 h)

/-! ## Rows -/

/-- How a row of `count` values ends that is complete when `n` octets are stored. -/
def rowResult (m : Medium) (n count : Nat) : Except Fault Nat :=
  if m.HasRoom n then .ok count else .error m.fullFault

theorem endRow_offered (h : t.sink.Offered m octets) (hm : m.chunk ≠ some 0) (count : Nat) :
    (t.endRow count).1 = rowResult m (octets ++ [terminator]).length count ∧
      Offers m octets t [terminator] (t.endRow count).2 := by
  unfold endRow rowResult
  rcases put_offered_cases h hm (List.cons_ne_nil terminator []) with
    ⟨hroom, t', hput, hoffers⟩ | ⟨hroom, t', hput, hoffers⟩
  · rw [hput, if_pos hroom]
    exact ⟨rfl, hoffers.offered, hoffers.calls⟩
  · rw [hput, if_neg hroom]
    exact ⟨rfl, hoffers⟩

theorem putSeparator_offered_cases (h : t.sink.Offered m octets) (hm : m.chunk ≠ some 0)
    (written : Nat) :
    let piece := encodeFront written
    (∃ t', t.putSeparator written = (.ok (), t') ∧ Offers m octets t piece t') ∨
      (¬ m.HasRoom (octets ++ piece).length ∧
        ∃ t', t.putSeparator written = (.error m.fullFault, t') ∧ Offers m octets t piece t') := by
  intro piece
  unfold putSeparator
  by_cases hw : written = 0
  · simp only [piece, encodeFront, hw, if_true]
    exact .inl ⟨t, rfl, .refl h⟩
  · simp only [piece, encodeFront, hw, if_false]
    rcases put_offered_cases h hm (List.cons_ne_nil separator []) with ⟨-, hok⟩ | hfull
    · exact .inl hok
    · exact .inr hfull

variable {σ : Type} [Source σ]

/-- One more value of a row with the separator in front of it: the row goes on behind them, or it
fails because the sink is full. -/
theorem continueRow_succ_offered (h : t.sink.Offered m octets) (hm : m.chunk ≠ some 0)
    (written remaining : Nat) (source : σ) :
    let piece := encodeNext written (Source.draw source).1
    (m.HasRoom (octets ++ piece).length ∧ ∃ t', Offers m octets t piece t' ∧
        continueRow written (remaining + 1) t source =
          continueRow (written + 1) remaining t' (Source.draw source).2) ∨
      (¬ m.HasRoom (octets ++ piece).length ∧ ∃ t', Offers m octets t piece t' ∧
        continueRow written (remaining + 1) t source =
          ⟨.error m.fullFault, written + 1, t', (Source.draw source).2⟩) := by
  intro piece
  have hpiece : octets ++ piece =
      octets ++ encodeFront written ++ encodeValue (Source.draw source).1 :=
    (List.append_assoc ..).symm
  rw [continueRow_succ, hpiece]
  rcases putSeparator_offered_cases h hm written with
    ⟨t₁, hput₁, hoffers₁⟩ | ⟨hroom, t₁, hput₁, hoffers₁⟩
  · rw [hput₁]
    rcases put_offered_cases hoffers₁.offered hm (encodeValue_ne_nil (Source.draw source).1) with
      ⟨hroom, t₂, hput₂, hoffers₂⟩ | ⟨hroom, t₂, hput₂, hoffers₂⟩
    · exact .inl ⟨hroom, t₂, hoffers₁.trans hoffers₂, by simp only [hput₂]⟩
    · exact .inr ⟨hroom, t₂, hoffers₁.trans hoffers₂, by simp only [hput₂]⟩
  · exact .inr ⟨fun hall => hroom hall.of_append, t₁, hoffers₁.of_full hroom _, by rw [hput₁]⟩

/-- The rest of a row ends well iff there is room for it. -/
theorem continueRow_offered (hm : m.chunk ≠ some 0) (remaining : Nat) :
    ∀ (written : Nat) (t : Transcript) (octets : List UInt8) (source : σ),
      t.sink.Offered m octets →
      let rest := encodeRemaining written (Source.take remaining source).1 ++ [terminator]
      (continueRow written remaining t source).result =
          rowResult m (octets ++ rest).length (written + remaining) ∧
        Offers m octets t rest (continueRow written remaining t source).transcript := by
  induction remaining with
  | zero =>
    intro written t octets source h
    rw [continueRow_zero, Source.take_zero, encodeRemaining_nil]
    exact endRow_offered h hm written
  | succ remaining ih =>
    intro written t octets source h rest
    have hrest : rest =
        encodeNext written (Source.draw source).1 ++
          (encodeRemaining (written + 1) (Source.take remaining (Source.draw source).2).1 ++
            [terminator]) := by
      simp only [rest, Source.take_succ, encodeRemaining_cons, List.append_assoc]
    rw [hrest]
    rcases continueRow_succ_offered h hm written remaining source with
      ⟨-, t', hoffers, heq⟩ | ⟨hroom, t', hoffers, heq⟩
    · obtain ⟨hresult, hoffers'⟩ :=
        ih (written + 1) t' _ (Source.draw source).2 hoffers.offered
      rw [heq]
      refine ⟨?_, hoffers.trans hoffers'⟩
      rw [hresult, List.append_assoc, Nat.add_assoc, Nat.add_comm 1 remaining]
    · rw [heq]
      refine ⟨?_, hoffers.of_full hroom _⟩
      rw [rowResult, ← List.append_assoc, if_neg fun hall => hroom hall.of_append]

/-- **A row** ends well iff there is room for it and for everything in front of it. -/
theorem writeRow_offered (h : t.sink.Offered m octets) (hm : m.chunk ≠ some 0) (count : Nat)
    (source : σ) :
    let row := encodeRow (Source.take count source).1
    (t.writeRow count source).result = rowResult m (octets ++ row).length count ∧
      Offers m octets t row (t.writeRow count source).transcript := by
  have hrow := continueRow_offered hm count 0 t octets source h
  rw [Nat.zero_add] at hrow
  exact hrow

/-! ## Lists of rows -/

theorem writeEach_cons (t : Transcript) (row : List Int64) (rows : List (List Int64)) :
    t.writeEach (row :: rows) =
      (t.writeValues row :: ((t.writeValues row).transcript.writeEach rows).1,
        ((t.writeValues row).transcript.writeEach rows).2) := rfl

/-- **A list of rows**, each of which is tried: what is stored are the first octets of their
encoding, and a row ends well iff there is room for the rows up to it. -/
theorem writeEach_offered (hm : m.chunk ≠ some 0) (rows : List (List Int64)) :
    ∀ (t : Transcript) (octets : List UInt8), t.sink.Offered m octets →
      Offers m octets t (encodeRows rows) (t.writeEach rows).2 ∧
        (t.writeEach rows).1.length = rows.length ∧
        ∀ i (hi : i < rows.length), ((t.writeEach rows).1.map (·.result))[i]? =
          some (rowResult m (octets ++ encodeRows (rows.take (i + 1))).length rows[i].length) := by
  induction rows with
  | nil =>
    intro t octets h
    exact ⟨.refl h, rfl, fun i hi => absurd hi (Nat.not_lt_zero i)⟩
  | cons row rows ih =>
    intro t octets h
    have hrow := t.writeRow_offered h hm row.length row
    rw [Source.take_length_list] at hrow
    obtain ⟨hresult, hoffers⟩ := hrow
    obtain ⟨hrest, hlength, hresults⟩ := ih _ _ hoffers.offered
    rw [writeEach_cons]
    refine ⟨hoffers.trans hrest, congrArg Nat.succ hlength, ?_⟩
    intro i hi
    cases i with
    | zero =>
      rw [List.map_cons, List.getElem?_cons_zero, List.getElem_cons_zero]
      show some (t.writeRow row.length row).result = _
      rw [hresult]
      simp [encodeRows]
    | succ i =>
      have hi' : i < rows.length := Nat.lt_of_succ_lt_succ hi
      rw [List.map_cons, List.getElem?_cons_succ, List.getElem_cons_succ]
      refine (hresults i hi').trans ?_
      rw [List.take_succ_cons, encodeRows_cons, List.append_assoc]

/-! ## Chunks and interruptions -/

/-- Two transcripts that were offered the same octets, each on its medium, and counted the same. -/
structure Alike (m m' : Medium) (t t' : Transcript) : Prop where
  offered : ∃ octets, t.sink.Offered m octets ∧ t'.sink.Offered m' octets
  tally : t'.tally = t.tally

/-- What is seen of a row that was tried: how it ended, how many values it drew, and what is stored
and counted after it. -/
def seen {σ : Type} (outcome : RowOutcome σ) : Except Fault Nat × Nat × List UInt8 × Tally :=
  (outcome.result, outcome.drawn, outcome.transcript.sink.octets, outcome.transcript.tally)

section

variable {m' : Medium} {t' : Transcript} (hroom : m.SameRoom m') (hm : m.chunk ≠ some 0)
  (hm' : m'.chunk ≠ some 0)

include hroom hm hm'

/-- A piece ends alike on media with the same room and leaves the transcripts alike. -/
theorem put_alike (h : Alike m m' t t') {piece : List UInt8} (hne : piece ≠ []) :
    (t'.put piece).1 = (t.put piece).1 ∧ Alike m m' (t.put piece).2 (t'.put piece).2 := by
  obtain ⟨octets, hoffered, hoffered'⟩ := h.offered
  obtain ⟨hresult, hnext⟩ := Sink.put_offered hoffered hm hne
  obtain ⟨hresult', hnext'⟩ := Sink.put_offered hoffered' hm' hne
  rw [hroom.fullFault] at hresult'
  simp only [hroom.hasRoom_iff] at hresult'
  have htally := h.tally
  unfold put
  rcases hput : t.sink.put piece with ⟨result, s⟩
  rcases hput' : t'.sink.put piece with ⟨result', s'⟩
  rw [hput] at hresult hnext
  rw [hput'] at hresult' hnext'
  have hsame : result' = result := hresult'.trans hresult.symm
  rw [hsame]
  rcases result with fault | _
  · exact ⟨rfl, ⟨_, hnext, hnext'⟩, htally⟩
  · exact ⟨rfl, ⟨_, hnext, hnext'⟩, by rw [htally]⟩

theorem endRow_alike (h : Alike m m' t t') (count : Nat) :
    (t'.endRow count).1 = (t.endRow count).1 ∧
      Alike m m' (t.endRow count).2 (t'.endRow count).2 := by
  obtain ⟨hresult, hnext⟩ := put_alike hroom hm hm' h (List.cons_ne_nil terminator [])
  unfold endRow
  rcases hput : t.put [terminator] with ⟨result, t₁⟩
  rcases hput' : t'.put [terminator] with ⟨result', t₁'⟩
  rw [hput, hput'] at hresult hnext
  cases hresult
  rcases result with fault | _
  · exact ⟨rfl, hnext⟩
  · have htally := congrArg
      (fun c : Tally => { c with rows := c.rows + 1, values := c.values + count }) hnext.tally
    exact ⟨rfl, hnext.offered, htally⟩

theorem putSeparator_alike (h : Alike m m' t t') (written : Nat) :
    (t'.putSeparator written).1 = (t.putSeparator written).1 ∧
      Alike m m' (t.putSeparator written).2 (t'.putSeparator written).2 := by
  unfold putSeparator
  by_cases hw : written = 0
  · rw [if_pos hw, if_pos hw]
    exact ⟨rfl, h⟩
  · rw [if_neg hw, if_neg hw]
    exact put_alike hroom hm hm' h (List.cons_ne_nil separator [])

/-- A row ends alike on media with the same room, draws the same values and leaves the transcripts
alike. -/
theorem continueRow_alike {σ : Type} [Source σ] (remaining : Nat) :
    ∀ {t t' : Transcript}, Alike m m' t t' → ∀ (written : Nat) (source : σ),
      (continueRow written remaining t' source).result =
          (continueRow written remaining t source).result ∧
        (continueRow written remaining t' source).drawn =
          (continueRow written remaining t source).drawn ∧
        Alike m m' (continueRow written remaining t source).transcript
          (continueRow written remaining t' source).transcript := by
  induction remaining with
  | zero =>
    intro t t' h written source
    obtain ⟨hresult, hnext⟩ := endRow_alike hroom hm hm' h written
    rw [continueRow_zero, continueRow_zero]
    exact ⟨hresult, rfl, hnext⟩
  | succ remaining ih =>
    intro t t' h written source
    obtain ⟨hresult₁, hnext₁⟩ := putSeparator_alike hroom hm hm' h written
    rw [continueRow_succ, continueRow_succ]
    rcases hput₁ : t.putSeparator written with ⟨result₁, t₁⟩
    rcases hput₁' : t'.putSeparator written with ⟨result₁', t₁'⟩
    rw [hput₁, hput₁'] at hresult₁ hnext₁
    cases hresult₁
    rcases result₁ with fault | _
    · exact ⟨rfl, rfl, hnext₁⟩
    · obtain ⟨hresult₂, hnext₂⟩ :=
        put_alike hroom hm hm' hnext₁ (encodeValue_ne_nil (Source.draw source).1)
      rcases hput₂ : t₁.put (encodeValue (Source.draw source).1) with ⟨result₂, t₂⟩
      rcases hput₂' : t₁'.put (encodeValue (Source.draw source).1) with ⟨result₂', t₂'⟩
      rw [hput₂, hput₂'] at hresult₂ hnext₂
      cases hresult₂
      simp only [hput₂, hput₂']
      rcases result₂ with fault | _
      · exact ⟨rfl, rfl, hnext₂⟩
      · exact ih hnext₂ (written + 1) (Source.draw source).2

/-- Rows that are tried one after the other look alike on media with the same room. -/
theorem writeEach_alike (rows : List (List Int64)) :
    ∀ {t t' : Transcript}, Alike m m' t t' →
      (t'.writeEach rows).1.map seen = (t.writeEach rows).1.map seen := by
  induction rows with
  | nil => intro t t' _; rfl
  | cons row rows ih =>
    intro t t' h
    obtain ⟨hresult, hdrawn, hnext⟩ :=
      continueRow_alike hroom hm hm' row.length h 0 row
    obtain ⟨octets, hoffered, hoffered'⟩ := hnext.offered
    have hoctets := hoffered'.octets
    rw [hroom.kept, ← hoffered.octets] at hoctets
    rw [writeEach_cons, writeEach_cons, List.map_cons, List.map_cons]
    refine congrArg₂ List.cons ?_ (ih hnext)
    exact Prod.ext hresult (Prod.ext hdrawn (Prod.ext hoctets hnext.tally))

end

/-! ## What rows leave behind -/

/-- **Rows on a medium with limited room**, tried one after the other, the later ones also when an
earlier one failed. They come to an end, after two calls of the sink for each octet at most. What is
stored are the first octets of their encoding, as many as there is room for. A row ends well, with
the number of its values, iff there is room for the rows up to its end; from the first one that
does not, all fail as the full medium does. The chunks that the medium takes and the interruptions
are not seen in how a row ends, what it draws, what is stored or what is counted. -/
theorem writeEach_limited {m : Medium} (hm : m.chunk ≠ some 0) (rows : List (List Int64)) :
    let written := writeEach { sink := { medium := m } } rows
    let plainly := writeEach { sink := { medium := { m with chunk := none, period := none } } } rows
    let results := written.1.map (·.result)
    let fault := m.whenFull.getD .tookNothing
    written.2.sink.calls ≤ 2 * (encodeRows rows).length ∧
      written.2.sink.octets = m.kept (encodeRows rows) ∧
      results.length = rows.length ∧
      (∀ i (hi : i < rows.length), results[i]? =
        some (if m.HasRoom (encodeRows (rows.take (i + 1))).length then .ok rows[i].length
          else .error fault)) ∧
      (∀ i j, i ≤ j → j < rows.length → (∀ n, results[i]? ≠ some (.ok n)) →
        results[j]? = some (.error fault)) ∧
      written.1.map seen = plainly.1.map seen := by
  intro written plainly results fault
  obtain ⟨hoffers, hlength, hresults⟩ :=
    writeEach_offered hm rows { sink := { medium := m } } [] (Sink.offered_empty m)
  have hcalls := hoffers.calls
  rw [Nat.zero_add] at hcalls
  refine ⟨hcalls, hoffers.offered.octets, ?_, hresults, ?_, ?_⟩
  · rw [List.length_map]
    exact hlength
  · intro i j hij hj hfail
    have hroom : ¬ m.HasRoom (encodeRows (rows.take (i + 1))).length := by
      intro hroom
      apply hfail
      rw [hresults i (Nat.lt_of_le_of_lt hij hj), List.nil_append, rowResult, if_pos hroom]
    have hroom' : ¬ m.HasRoom (encodeRows (rows.take (j + 1))).length := by
      -- the rows up to the first one stand in front of those up to the second one
      obtain ⟨more, hmore⟩ := List.take_prefix_take_left (l := rows) (Nat.succ_le_succ hij)
      rw [← hmore, encodeRows_append]
      exact fun hall => hroom hall.of_append
    rw [hresults j hj, List.nil_append, rowResult, if_neg hroom']
    rfl
  · have hsame : m.SameRoom { m with chunk := none, period := none } := ⟨rfl, rfl⟩
    have halike : Alike m { m with chunk := none, period := none } { sink := { medium := m } }
        { sink := { medium := { m with chunk := none, period := none } } } :=
      ⟨⟨[], Sink.offered_empty _, Sink.offered_empty _⟩, rfl⟩
    exact (writeEach_alike hsame hm (by simp) rows halike).symm

/-- Room for seven octets in pairs, every third call interrupted, and no fault of its own when full:
the first row fits with its line end, the second one but for its line end. -/
theorem writeEach_limited_seven :
    let m : Medium := { limit := some 7, chunk := some 2, period := some ⟨3, by decide⟩ }
    let rows : List (List Int64) := [[12, -5], [3], [], [40]]
    let written := writeEach { sink := { medium := m } } rows
    let results := written.1.map (·.result)
    m.chunk ≠ some 0 ∧ written.2.sink.calls ≤ 24 ∧
      written.2.sink.octets = [0x31, 0x32, 0x20, 0x2d, 0x35, 0x0a, 0x33] ∧ results.length = 4 ∧
      results[0]? = some (.ok 2) ∧ results[1]? = some (.error .tookNothing) ∧
      results[2]? = some (.error .tookNothing) ∧ results[3]? = some (.error .tookNothing) := by
  intro m rows written results
  have hm : m.chunk ≠ some 0 := by decide
  obtain ⟨hcalls, hoctets, hlength, hresults, hlater, -⟩ := writeEach_limited hm rows
  have hfirst : results[0]? = some (.ok 2) := (hresults 0 (by decide)).trans (by decide)
  have hsecond : results[1]? = some (.error .tookNothing) :=
    (hresults 1 (by decide)).trans (by decide)
  have hno : ∀ n, results[1]? ≠ some (.ok n) := by
    intro n
    rw [hsecond]
    simp
  refine ⟨hm, hcalls, hoctets.trans (by decide), hlength, hfirst, hsecond, ?_, ?_⟩
  · exact hlater 1 2 (by decide) (by decide) hno
  · exact hlater 1 3 (by decide) (by decide) hno

end PartyInputs.Transcript
