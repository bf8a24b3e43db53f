import PartyInputs.Sink
import PartyInputs.Table.Encoding

/-!
# Writing rows

A transcript writes rows into a sink piece by piece (values, separators and line ends are the
pieces) and counts what the sink has taken as a whole. Values are drawn from a source one at a time,
each only when it is due: a row that fails has drawn the values up to the failure and no more.
-/

namespace PartyInputs

/-! ## Sources of values -/

/-- Values that are produced one at a time. -/
class Source (σ : Type) where
  /-- The next value and the source behind it. -/
  draw : σ → Int64 × σ

/-- The values of a list in order. A row never draws more values than its list holds, so what
follows the last one does not matter. -/
instance : Source (List Int64) where
  draw
    | [] => (0, [])
    | v :: vs => (v, vs)

/-! ## Transcripts -/

/-- What was written. -/
structure Tally where
  /-- Rows written to their end. -/
  rows : Nat := 0
  /-- Values in those rows. -/
  values : Nat := 0
  /-- Octets of the pieces that were stored as a whole. -/
  octets : Nat := 0
  deriving DecidableEq, Repr

/-- A sink and the count of what was written into it. -/
structure Transcript where
  sink : Sink
  tally : Tally := {}

/-- What became of a row: its number of values or the fault, the number of values that were drawn
for it, and the transcript and the source afterwards. -/
structure RowOutcome (σ : Type) where
  result : Except Fault Nat
  drawn : Nat
  transcript : Transcript
  source : σ

namespace Transcript

/-- Writes a piece and counts its octets if all of it was stored. -/
def put (t : Transcript) (piece : List UInt8) : Except Fault Unit × Transcript :=
  match t.sink.put piece with
  | (.ok (), sink) =>
    (.ok (), { sink, tally := { t.tally with octets := t.tally.octets + piece.length } })
  | (.error fault, sink) => (.error fault, { t with sink })

/-- Ends a row of `count` values. -/
def endRow (t : Transcript) (count : Nat) : Except Fault Nat × Transcript :=
  match t.put [terminator] with
  | (.error fault, t) => (.error fault, t)
  | (.ok (), t) =>
    let tally := { t.tally with rows := t.tally.rows + 1, values := t.tally.values + count }
    (.ok count, { t with tally })

variable {σ : Type} [Source σ]

/-- Writes the rest of a row: `written` values stand in it already, `remaining` are to come. -/
def continueRow (written : Nat) : (remaining : Nat) → Transcript → σ → RowOutcome σ
  | 0, t, source =>
    let (result, t) := t.endRow written
    ⟨result, written, t, source⟩
  | remaining + 1, t, source =>
    let (v, source) := Source.draw source
    match if written = 0 then (.ok (), t) else t.put [separator] with
    | (.error fault, t) => ⟨.error fault, written + 1, t, source⟩
    | (.ok (), t) =>
      match t.put (encodeValue v) with
      | (.error fault, t) => ⟨.error fault, written + 1, t, source⟩
      | (.ok (), t) => continueRow (written + 1) remaining t source

/-- Writes a row of the next `count` values of the source. -/
def writeRow (t : Transcript) (count : Nat) (source : σ) : RowOutcome σ :=
  continueRow 0 count t source

/-- Writes a row of the given values. -/
def writeValues (t : Transcript) (values : List Int64) : RowOutcome (List Int64) :=
  t.writeRow values.length values

/-- Writes rows one after the other. A row that fails does not keep the next one from being
tried. -/
def writeEach (t : Transcript) :
    List (List Int64) → List (RowOutcome (List Int64)) × Transcript
  | [] => ([], t)
  | row :: rows =>
    let outcome := t.writeValues row
    let (outcomes, t) := outcome.transcript.writeEach rows
    (outcome :: outcomes, t)

/-- Makes sure that what was written is kept. -/
def finish (t : Transcript) : Except Fault Unit := t.sink.flush

end Transcript

end PartyInputs
