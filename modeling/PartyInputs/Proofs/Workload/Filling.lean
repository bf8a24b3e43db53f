import PartyInputs.Proofs.Values.Drawing
import PartyInputs.Workload.Sheet

/-!
# Filling sheets

A sheet is filled through three loops: grids, rows of a grid, values of a row. Where one grid ends
and the next one begins is not seen: what is written are rows of certain widths, one below the
other. They either fail, which only a medium that does not take everything does, or hand the stream
on at the position that counting gives and leave exactly these rows in the sink.

* `Grid.widths`, `Sheet.widths`: the widths of the rows, from top to bottom.
* `Transcript.writeWidths`, `Transcript.writeGrids_eq`: grids as **rows of certain widths**.
* `Transcript.writeWidths_cases`: rows either fail or are the next ones of the stream.
* `Sheet.fill_cases`: **what a sheet that was filled holds**: the rows that the stream starts with,
  cut to the widths of the sheet.
* `Sheet.flatten_allRowsFrom`: **no value is lost between sheets**.
-/

namespace PartyInputs

/-! ## Widths -/

/-- The widths of the rows of a grid. -/
def Grid.widths (g : Grid) : List Nat := List.replicate g.rows g.cols

/-- The widths of the rows of a sheet. -/
def Sheet.widths (s : Sheet) : List Nat := s.grids.flatMap Grid.widths

theorem Grid.sum_widths (g : Grid) : g.widths.sum = g.valueCount := by
  rw [widths, List.sum_replicate_nat, valueCount]

theorem Sheet.sum_widths (s : Sheet) : s.widths.sum = s.valueCount := by
  unfold widths valueCount
  induction s.grids with
  | nil => rfl
  | cons grid grids ih =>
    rw [List.flatMap_cons, List.sum_append_nat, List.foldr_cons, ih, Grid.sum_widths]

namespace Transcript

/-! ## Grids as rows -/

/-- Writes rows of the given widths, as long as none fails. -/
def writeWidths : List Nat → Transcript → ValueStream → RowsOutcome
  | [], t, stream => ⟨.ok (), t, stream⟩
  | width :: widths, t, stream =>
    match t.writeRow width stream with
    | ⟨.error fault, _, t, stream⟩ => ⟨.error fault, t, stream⟩
    | ⟨.ok _, _, t, stream⟩ => writeWidths widths t stream

/-- Rows are written on where the rows in front of them ended. -/
theorem writeWidths_append (widths more : List Nat) : ∀ (t : Transcript) (stream : ValueStream),
    t.writeWidths (widths ++ more) stream =
      match t.writeWidths widths stream with
      | ⟨.error fault, t, stream⟩ => ⟨.error fault, t, stream⟩
      | ⟨.ok (), t, stream⟩ => t.writeWidths more stream := by
  induction widths with
  | nil => intro t stream; rfl
  | cons width widths ih =>
    intro t stream
    rw [List.cons_append, writeWidths, writeWidths]
    rcases t.writeRow width stream with ⟨fault | count, drawn, t', stream'⟩
    · rfl
    · exact ih t' stream'

theorem writeRows_eq (cols rows : Nat) : ∀ (t : Transcript) (stream : ValueStream),
    t.writeRows cols rows stream = t.writeWidths (List.replicate rows cols) stream := by
  induction rows with
  | zero => intro t stream; rfl
  | succ rows ih =>
    intro t stream
    rw [List.replicate_succ, writeRows, writeWidths]
    rcases t.writeRow cols stream with ⟨fault | count, drawn, t', stream'⟩
    · rfl
    · exact ih t' stream'

/-- **Grids are written as the rows that they consist of.** -/
theorem writeGrids_eq (grids : List Grid) : ∀ (t : Transcript) (stream : ValueStream),
    t.writeGrids grids stream = t.writeWidths (grids.flatMap Grid.widths) stream := by
  induction grids with
  | nil => intro t stream; rfl
  | cons grid grids ih =>
    intro t stream
    rw [List.flatMap_cons, writeWidths_append, writeGrids, writeRows_eq, Grid.widths]
    rcases t.writeWidths (List.replicate grid.rows grid.cols) stream with
      ⟨fault | _, t', stream'⟩
    · rfl
    · exact ih t' stream'

/-! ## Rows -/

/-- The next row of a stream. -/
theorem writeRow_stream_cases (t : Transcript) (count : Nat) (stream : ValueStream) :
    (¬ t.sink.medium.TakesAll ∧ ∃ fault, (t.writeRow count stream).result = .error fault) ∨
      ∃ t', t.writeRow count stream = ⟨.ok count, count, t', stream.advance count⟩ ∧
        t.Gains (stream.cut [count]) t' := by
  have hcut : stream.cut [count] = [(Source.take count stream).1] := by
    rw [ValueStream.source_take_eq]
    rfl
  have hnext : (Source.take count stream).2 = stream.advance count := by
    rw [ValueStream.source_take_eq, ValueStream.take_snd]
  rw [hcut, ← hnext]
  exact t.writeRow_cases count stream

/-- Rows either fail or are the next rows of the stream. -/
theorem writeWidths_cases (widths : List Nat) : ∀ (t : Transcript) (stream : ValueStream),
    (¬ t.sink.medium.TakesAll ∧ ∃ fault, (t.writeWidths widths stream).result = .error fault) ∨
      ∃ t', t.writeWidths widths stream = ⟨.ok (), t', stream.advance widths.sum⟩ ∧
        t.Gains (stream.cut widths) t' := by
  induction widths with
  | nil =>
    intro t stream
    refine .inr ⟨t, ?_, .refl t⟩
    rw [List.sum_nil, ValueStream.advance_zero]
    rfl
  | cons width widths ih =>
    intro t stream
    unfold writeWidths
    rcases t.writeRow_stream_cases width stream with ⟨hm, fault, hfail⟩ | ⟨t₁, hrow, hg₁⟩
    · refine .inl ⟨hm, fault, ?_⟩
      rcases hw : t.writeRow width stream with ⟨result, drawn, t', stream'⟩
      rw [hw] at hfail
      cases hfail
      rfl
    · rw [hrow]
      rcases ih t₁ (stream.advance width) with ⟨hm, hfail⟩ | ⟨t₂, hrows, hg₂⟩
      · exact .inl ⟨fun h => hm (hg₁.sink.takesAll h), hfail⟩
      · refine .inr ⟨t₂, ?_, hg₁.trans hg₂⟩
        show t₁.writeWidths widths (stream.advance width) = _
        rw [hrows, ValueStream.advance_advance, List.sum_cons]

end Transcript

namespace Sheet

/-! ## Sheets -/

/-- The rows that a sheet is filled with. -/
def rowsFrom (s : Sheet) (stream : ValueStream) : List (List Int64) := stream.cut s.widths

/-- A sheet holds the values that the stream starts with, in their order. -/
theorem flatten_rowsFrom (s : Sheet) (stream : ValueStream) :
    (s.rowsFrom stream).flatten = (stream.take s.valueCount).1 := by
  rw [rowsFrom, ValueStream.flatten_cut, sum_widths]

/-- A sheet is written as the rows that it consists of, and then flushed. -/
theorem fill_eq (s : Sheet) (sink : Sink) (stream : ValueStream) :
    s.fill sink stream =
      match Transcript.writeWidths s.widths { sink } stream with
      | ⟨.error fault, t, stream⟩ => ⟨.error fault, t.sink, stream⟩
      | ⟨.ok (), t, stream⟩ => ⟨t.finish.map fun () => t.tally, t.sink, stream⟩ := by
  rw [fill, Transcript.writeGrids_eq]
  rfl

/-- **Filling a sheet** either fails or leaves its rows in the sink, counted, and the stream behind
the values that stand on the sheet. -/
theorem fill_cases (s : Sheet) (sink : Sink) (stream : ValueStream) :
    (¬ sink.medium.TakesAll ∧ ∃ fault, (s.fill sink stream).result = .error fault) ∨
      ∃ sink', s.fill sink stream =
          ⟨.ok (({} : Tally).addRows (s.rowsFrom stream)), sink', stream.advance s.valueCount⟩ ∧
        sink.Gains (encodeRows (s.rowsFrom stream)) sink' := by
  rw [fill_eq]
  rcases Transcript.writeWidths_cases s.widths { sink } stream with
    ⟨hm, fault, hfail⟩ | ⟨t, hrows, hg⟩
  · refine .inl ⟨hm, fault, ?_⟩
    rcases hw : Transcript.writeWidths s.widths { sink } stream with ⟨result, t', stream'⟩
    rw [hw] at hfail
    cases hfail
    rfl
  · rw [hrows, ← s.sum_widths]
    rcases hflush : t.finish with fault | _
    · -- only flushing can still fail
      refine .inl ⟨fun h => ?_, fault, by simp only [hflush]; rfl⟩
      have htakes : t.sink.medium.TakesAll := hg.sink.takesAll h
      rw [Transcript.finish, Sink.flush, htakes.flushes] at hflush
      cases hflush
    · refine .inr ⟨t.sink, ?_, hg.sink⟩
      simp only [hflush, hg.tally]
      rfl

/-! ## Sheets one after the other -/

/-- The rows of successive sheets that one stream fills, sheet by sheet. -/
def allRowsFrom : List Sheet → ValueStream → List (List (List Int64))
  | [], _ => []
  | sheet :: sheets, stream =>
    sheet.rowsFrom stream :: allRowsFrom sheets (stream.advance sheet.valueCount)

theorem allRowsFrom_cons (sheet : Sheet) (sheets : List Sheet) (stream : ValueStream) :
    allRowsFrom (sheet :: sheets) stream =
      sheet.rowsFrom stream :: allRowsFrom sheets (stream.advance sheet.valueCount) := rfl

/-- Sheets are filled on from where the sheets in front of them ended. -/
theorem allRowsFrom_append (sheets more : List Sheet) : ∀ stream : ValueStream,
    allRowsFrom (sheets ++ more) stream =
      allRowsFrom sheets stream ++
        allRowsFrom more (stream.advance (sheets.map valueCount).sum) := by
  induction sheets with
  | nil =>
    intro stream
    rw [List.nil_append, List.map_nil, List.sum_nil, ValueStream.advance_zero]
    rfl
  | cons sheet sheets ih =>
    intro stream
    rw [List.cons_append, allRowsFrom_cons, ih, allRowsFrom_cons, List.map_cons, List.sum_cons,
      ValueStream.advance_advance, List.cons_append]

theorem length_allRowsFrom (sheets : List Sheet) : ∀ stream : ValueStream,
    (allRowsFrom sheets stream).length = sheets.length := by
  induction sheets with
  | nil => intro stream; rfl
  | cons sheet sheets ih =>
    intro stream
    rw [allRowsFrom_cons, List.length_cons, ih, List.length_cons]

/-- **No value is lost between sheets**: read one sheet after the other, they hold the values that
the stream starts with. -/
theorem flatten_allRowsFrom (sheets : List Sheet) : ∀ stream : ValueStream,
    ((allRowsFrom sheets stream).map List.flatten).flatten =
      (stream.take (sheets.map valueCount).sum).1 := by
  induction sheets with
  | nil => intro stream; rfl
  | cons sheet sheets ih =>
    intro stream
    rw [allRowsFrom_cons, List.map_cons, List.flatten_cons, ih, flatten_rowsFrom, List.map_cons,
      List.sum_cons, ValueStream.take_add]

end Sheet

end PartyInputs
