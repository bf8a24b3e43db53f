import PartyInputs.Values.Stream

/-!
# Sheets

The file of one party is a sheet: grids of values, one below the other, each row of a grid on a line
of its own. A sheet is filled from a stream, grid after grid, row after row, from left to right.
-/

namespace PartyInputs

/-- A rectangle of values. -/
structure Grid where
  rows : Nat
  cols : Nat
  deriving DecidableEq, Repr

/-- The number of values in a grid. -/
def Grid.valueCount (g : Grid) : Nat := g.rows * g.cols

/-- What the file of one party holds. -/
structure Sheet where
  party : Nat
  grids : List Grid
  deriving DecidableEq, Repr

/-- What became of filling a sheet: its tally or the fault, and the sink and the stream afterwards.
A value that was drawn for a row that failed stays drawn. -/
structure SheetOutcome where
  result : Except Fault Tally
  sink : Sink
  stream : ValueStream

/-- What became of a number of rows. -/
structure RowsOutcome where
  result : Except Fault Unit
  transcript : Transcript
  stream : ValueStream

namespace Transcript

/-- Writes `rows` rows of `cols` values each, as long as none fails. -/
def writeRows (cols : Nat) : (rows : Nat) → Transcript → ValueStream → RowsOutcome
  | 0, t, stream => ⟨.ok (), t, stream⟩
  | rows + 1, t, stream =>
    match t.writeRow cols stream with
    | ⟨.error fault, _, t, stream⟩ => ⟨.error fault, t, stream⟩
    | ⟨.ok _, _, t, stream⟩ => writeRows cols rows t stream

/-- Writes grids one below the other, as long as no row fails. -/
def writeGrids : List Grid → Transcript → ValueStream → RowsOutcome
  | [], t, stream => ⟨.ok (), t, stream⟩
  | grid :: grids, t, stream =>
    match t.writeRows grid.cols grid.rows stream with
    | ⟨.error fault, t, stream⟩ => ⟨.error fault, t, stream⟩
    | ⟨.ok (), t, stream⟩ => writeGrids grids t stream

end Transcript

namespace Sheet

/-- The number of values on the sheet. -/
def valueCount (s : Sheet) : Nat := s.grids.foldr (fun g count => g.valueCount + count) 0

/-- Fills the sheet from the stream, writing it into the sink, and flushes the sink at the end. -/
def fill (s : Sheet) (sink : Sink) (stream : ValueStream) : SheetOutcome :=
  match Transcript.writeGrids s.grids { sink } stream with
  | ⟨.error fault, t, stream⟩ => ⟨.error fault, t.sink, stream⟩
  | ⟨.ok (), t, stream⟩ => ⟨t.finish.map fun () => t.tally, t.sink, stream⟩

end Sheet

end PartyInputs
