import PartyInputs.Proofs.Workload.Filling

/-!
# What filling a sheet draws

A sheet that fails has drawn values that nobody sees: the ones for the row that failed, and the one
that did not fit. To say which values these are, the stream is replaced by one that notes what is
drawn from it. Rows take their values from any source, so they can take them from this one, and
they cannot tell the difference.

* `Recording`: a stream with the values that were drawn from it.
* `Transcript.continueRow_recording`, `Transcript.recordRows_spec`, `Transcript.recordGrids_spec`:
  **noting changes nothing**: whatever the sink does, a run on a recording is the run on its
  stream, and what it notes are the values that the stream was moved past.
* `Sheet.drawn`: the values that filling a sheet draws.
* `Sheet.stream_fill`, `Sheet.drawn_eq_take`: **a sheet draws the next values of its stream**, as
  many as it moves the stream on by.
-/

namespace PartyInputs

/-! ## Recordings -/

/-- A stream that notes what is drawn from it. -/
structure Recording where
  stream : ValueStream
  /-- The values that were drawn, in their order. -/
  noted : List Int64 := []

namespace Recording

/-- Draws the next value and notes it. -/
def draw (r : Recording) : Int64 × Recording :=
  (r.stream.draw.1, ⟨r.stream.draw.2, r.noted ++ [r.stream.draw.1]⟩)

instance : Source Recording := ⟨draw⟩

/-- The recording after the next `n` values were drawn. -/
def after (r : Recording) (n : Nat) : Recording :=
  ⟨r.stream.advance n, r.noted ++ (r.stream.take n).1⟩

@[simp] theorem stream_after (r : Recording) (n : Nat) :
    (r.after n).stream = r.stream.advance n := rfl

@[simp] theorem after_zero (r : Recording) : r.after 0 = r := by
  simp [after, ValueStream.advance_zero, ValueStream.take]

theorem after_after (r : Recording) (m n : Nat) : (r.after m).after n = r.after (m + n) := by
  simp [after, ValueStream.advance_advance, ValueStream.take_add]

theorem draw_eq (r : Recording) : r.draw = (r.stream.draw.1, r.after 1) := by
  simp [draw, after, ValueStream.take, ValueStream.draw_snd]

end Recording

namespace Transcript

/-! ## Rows -/

/-- The rest of a row notes the values that it draws, and is the same otherwise. It draws all that
are due, unless it fails. -/
theorem continueRow_recording (remaining : Nat) :
    ∀ (written : Nat) (t : Transcript) (r : Recording),
      let outcome := continueRow written remaining t r.stream
      ∃ n, n ≤ remaining ∧ (∀ count, outcome.result = .ok count → n = remaining) ∧
        outcome.source = r.stream.advance n ∧
        continueRow written remaining t r =
          ⟨outcome.result, outcome.drawn, outcome.transcript, r.after n⟩ := by
  induction remaining with
  | zero =>
    intro written t r outcome
    refine ⟨0, Nat.le_refl 0, fun _ _ => rfl, r.stream.advance_zero.symm, ?_⟩
    rw [Recording.after_zero]
    rfl
  | succ remaining ih =>
    intro written t r outcome
    have hvalue : (Source.draw r).1 = (Source.draw r.stream).1 := rfl
    have hnext : (Source.draw r).2 = r.after 1 := congrArg Prod.snd r.draw_eq
    have hstream : (Source.draw r.stream).2 = r.stream.advance 1 := r.stream.draw_snd
    simp only [outcome, continueRow_succ, hvalue, hnext, hstream]
    rcases t.putSeparator written with ⟨fault | _, t₁⟩
    · exact ⟨1, by omega, by simp, rfl, rfl⟩
    · rcases hput : t₁.put (encodeValue (Source.draw r.stream).1) with ⟨fault | _, t₂⟩
      · simp only [hput]
        exact ⟨1, by omega, by simp, rfl, rfl⟩
      · simp only [hput]
        obtain ⟨n, hn, hall, hsource, heq⟩ := ih (written + 1) t₂ (r.after 1)
        refine ⟨1 + n, by omega, ?_, ?_, ?_⟩
        · intro count hcount
          rw [hall count hcount, Nat.add_comm]
        · rw [← ValueStream.advance_advance]
          exact hsource
        · rw [← r.after_after]
          exact heq

/-! ## Rows and grids -/

/-- What became of a number of rows that drew from a recording. -/
structure RecordedOutcome where
  result : Except Fault Unit
  transcript : Transcript
  recording : Recording

/-- Writes rows from a recording, as long as none fails. -/
def recordRows (cols : Nat) : (rows : Nat) → Transcript → Recording → RecordedOutcome
  | 0, t, r => ⟨.ok (), t, r⟩
  | rows + 1, t, r =>
    match t.writeRow cols r with
    | ⟨.error fault, _, t, r⟩ => ⟨.error fault, t, r⟩
    | ⟨.ok _, _, t, r⟩ => recordRows cols rows t r

/-- Writes grids from a recording, as long as no row fails. -/
def recordGrids : List Grid → Transcript → Recording → RecordedOutcome
  | [], t, r => ⟨.ok (), t, r⟩
  | grid :: grids, t, r =>
    match recordRows grid.cols grid.rows t r with
    | ⟨.error fault, t, r⟩ => ⟨.error fault, t, r⟩
    | ⟨.ok (), t, r⟩ => recordGrids grids t r

/-- Rows that were written from the recording `r` are the rows that were written from its stream:
they end in the same way on the same transcript. What they draw are the next values, all `total` of
them unless they fail. -/
def IsRecordOf (r : Recording) (total : Nat) (outcome : RowsOutcome)
    (recorded : RecordedOutcome) : Prop :=
  ∃ n, n ≤ total ∧ (outcome.result = .ok () → n = total) ∧ outcome.stream = r.stream.advance n ∧
    recorded = ⟨outcome.result, outcome.transcript, r.after n⟩

/-- Rows that fail are recorded as soon as they do. -/
theorem IsRecordOf.of_error {r : Recording} {total n : Nat} (hn : n ≤ total) (fault : Fault)
    (t : Transcript) :
    IsRecordOf r total ⟨.error fault, t, r.stream.advance n⟩ ⟨.error fault, t, r.after n⟩ :=
  ⟨n, hn, by simp, rfl, rfl⟩

/-- Rows behind others are recorded from where the others ended. -/
theorem IsRecordOf.of_after {r : Recording} {m total : Nat} {outcome : RowsOutcome}
    {recorded : RecordedOutcome} (h : IsRecordOf (r.after m) total outcome recorded) :
    IsRecordOf r (m + total) outcome recorded := by
  obtain ⟨n, hn, hall, hstream, heq⟩ := h
  refine ⟨m + n, by omega, fun hok => by rw [hall hok], ?_, ?_⟩
  · rw [hstream, Recording.stream_after, ValueStream.advance_advance]
  · rw [heq, Recording.after_after]

/-- **Rows of one width** note what they draw and are the same otherwise. -/
theorem recordRows_spec (cols rows : Nat) : ∀ (t : Transcript) (r : Recording),
    IsRecordOf r (List.replicate rows cols).sum (t.writeRows cols rows r.stream)
      (recordRows cols rows t r) := by
  induction rows with
  | zero =>
    intro t r
    exact ⟨0, Nat.le_refl 0, fun _ => rfl, r.stream.advance_zero.symm, by rw [r.after_zero]; rfl⟩
  | succ rows ih =>
    intro t r
    rw [List.replicate_succ, List.sum_cons]
    obtain ⟨n, hn, hall, hsource, heq⟩ := continueRow_recording cols 0 t r
    unfold writeRows recordRows
    rcases hrow : t.writeRow cols r.stream with ⟨result, drawn, t₁, stream⟩
    unfold writeRow at hrow
    rw [hrow] at hall hsource heq
    have hrecorded : t.writeRow cols r = ⟨result, drawn, t₁, r.after n⟩ := heq
    have hstream : stream = r.stream.advance n := hsource
    rw [hrecorded, hstream]
    rcases result with fault | count
    · exact .of_error (by omega) fault t₁
    · have hcols : n = cols := hall count rfl
      rw [hcols]
      exact .of_after (ih t₁ (r.after cols))

/-- **Grids** note what they draw and are the same otherwise. -/
theorem recordGrids_spec (grids : List Grid) : ∀ (t : Transcript) (r : Recording),
    IsRecordOf r (grids.flatMap Grid.widths).sum (t.writeGrids grids r.stream)
      (recordGrids grids t r) := by
  induction grids with
  | nil =>
    intro t r
    exact ⟨0, Nat.le_refl 0, fun _ => rfl, r.stream.advance_zero.symm, by rw [r.after_zero]; rfl⟩
  | cons grid grids ih =>
    intro t r
    rw [List.flatMap_cons, List.sum_append_nat]
    obtain ⟨n, hn, hall, hstream, heq⟩ := recordRows_spec grid.cols grid.rows t r
    unfold writeGrids recordGrids
    rcases hrows : t.writeRows grid.cols grid.rows r.stream with ⟨result, t₁, stream⟩
    rw [hrows] at hall hstream heq
    rw [heq]
    simp only at hstream
    rw [hstream]
    rcases result with fault | _
    · exact .of_error (Nat.le_trans hn (Nat.le_add_right ..)) fault t₁
    · have hwidths : n = grid.widths.sum := hall rfl
      rw [hwidths]
      exact .of_after (ih t₁ (r.after grid.widths.sum))

end Transcript

namespace Sheet

/-! ## Sheets -/

/-- The values that are drawn when the sheet is filled into the sink, as they are noted. -/
def drawn (s : Sheet) (sink : Sink) (stream : ValueStream) : List Int64 :=
  (Transcript.recordGrids s.grids { sink } { stream }).recording.noted

/-- What a sheet draws are values that its stream is moved past; if it is filled, they are all that
stand on it. -/
theorem exists_drawn_eq_take (s : Sheet) (sink : Sink) (stream : ValueStream) :
    ∃ n, n ≤ s.valueCount ∧ (∀ tally, (s.fill sink stream).result = .ok tally → n = s.valueCount) ∧
      (s.fill sink stream).stream = stream.advance n ∧
      s.drawn sink stream = (stream.take n).1 := by
  obtain ⟨n, hn, hall, hstream, heq⟩ := Transcript.recordGrids_spec s.grids { sink } { stream }
  rw [← widths, s.sum_widths] at hn hall
  have hdrawn : s.drawn sink stream = (stream.take n).1 := by
    rw [drawn, heq]
    rfl
  unfold fill
  rcases hgrids : Transcript.writeGrids s.grids { sink } stream with ⟨fault | _, t, stream'⟩
  · rw [hgrids] at hstream
    exact ⟨n, hn, by simp, hstream, hdrawn⟩
  · rw [hgrids] at hstream hall
    exact ⟨n, hn, fun _ _ => hall rfl, hstream, hdrawn⟩

theorem length_drawn_le (s : Sheet) (sink : Sink) (stream : ValueStream) :
    (s.drawn sink stream).length ≤ s.valueCount := by
  obtain ⟨n, hn, -, -, hdrawn⟩ := s.exists_drawn_eq_take sink stream
  rw [hdrawn, ValueStream.length_take]
  exact hn

/-- **A sheet that is filled has drawn the values that stand on it**, and no more. -/
theorem length_drawn_of_ok {s : Sheet} {sink : Sink} {stream : ValueStream} {tally : Tally}
    (h : (s.fill sink stream).result = .ok tally) :
    (s.drawn sink stream).length = s.valueCount := by
  obtain ⟨n, -, hall, -, hdrawn⟩ := s.exists_drawn_eq_take sink stream
  rw [hdrawn, ValueStream.length_take, hall tally h]

/-- **Filling a sheet moves the stream on** by as many values as it draws, whether it fails or
not. -/
theorem stream_fill (s : Sheet) (sink : Sink) (stream : ValueStream) :
    (s.fill sink stream).stream = stream.advance (s.drawn sink stream).length := by
  obtain ⟨n, -, -, hstream, hdrawn⟩ := s.exists_drawn_eq_take sink stream
  rw [hdrawn, ValueStream.length_take, hstream]

/-- **What a sheet draws are the next values of its stream.** -/
theorem drawn_eq_take (s : Sheet) (sink : Sink) (stream : ValueStream) :
    s.drawn sink stream = (stream.take (s.drawn sink stream).length).1 := by
  obtain ⟨n, -, -, -, hdrawn⟩ := s.exists_drawn_eq_take sink stream
  rw [hdrawn, ValueStream.length_take]

end Sheet

end PartyInputs
