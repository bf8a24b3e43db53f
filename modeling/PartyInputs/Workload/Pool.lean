import PartyInputs.Workload.Sheet

/-!
# Streams side by side

A pool holds streams, one of which is current. What is done in a pool is done to the current stream:
values are drawn from it, sheets are filled from it, and a copy of it can be put behind the others.
Streams are values, so a copy goes its own way.
-/

namespace PartyInputs

/-- Streams, and which of them is drawn from. -/
structure StreamPool where
  streams : List ValueStream
  current : Nat := 0

/-- Something to do with the current stream. -/
inductive PoolStep where
  | draw
  | take (n : Nat)
  /-- Draws the value behind the next `n`. -/
  | drawAfter (n : Nat)
  /-- Draws `n` values and keeps their bounds and their sum only. The bounds of no values are the
  greatest and the least integer, so that each value drawn narrows the one and lifts the other. -/
  | survey (n : Nat)
  | fill (sheet : Sheet) (sink : Sink)
  /-- Puts a copy behind the other streams. -/
  | fork
  /-- Makes another stream the current one. -/
  | switch (index : Nat)
  | sizeHint

/-- What a step gives. -/
inductive PoolAnswer where
  | value (v : Int64)
  | values (vs : List Int64)
  | survey (least greatest : Int64) (sum : Int)
  | filled (outcome : SheetOutcome)
  /-- The number of streams after a fork, or the number of the stream that was made current. -/
  | number (n : Nat)
  /-- Bounds on the number of values to come. -/
  | bounds (least : Nat) (most : Option Nat)

namespace StreamPool

/-- The pool of one stream. -/
def singleton (s : ValueStream) : StreamPool := ⟨[s], 0⟩

/-- The pool with another stream in place of the current one. -/
def update (p : StreamPool) (s : ValueStream) : StreamPool :=
  { p with streams := p.streams.set p.current s }

/-- Does a step with the current stream; `none` if there is no such stream. -/
def step (p : StreamPool) (step : PoolStep) : Option (PoolAnswer × StreamPool) :=
  p.streams[p.current]?.map fun s =>
    match step with
    | .draw => (.value s.draw.1, p.update s.draw.2)
    | .take n => (.values (s.take n).1, p.update (s.take n).2)
    | .drawAfter n => (.value (s.advance n).draw.1, p.update (s.advance n).draw.2)
    | .survey n =>
      let vs := (s.take n).1
      (.survey (vs.foldl min Int64.maxValue) (vs.foldl max Int64.minValue)
        (vs.foldl (fun sum v => sum + v.toInt) 0), p.update (s.take n).2)
    | .fill sheet sink =>
      let outcome := sheet.fill sink s
      (.filled outcome, p.update outcome.stream)
    | .fork => (.number (p.streams.length + 1), { p with streams := p.streams ++ [s] })
    | .switch index => (.number index, { p with current := index })
    | .sizeHint => (.bounds s.sizeHint.1 s.sizeHint.2, p)

/-- Does steps one after the other, as long as there is a current stream. -/
def run (p : StreamPool) : List PoolStep → List PoolAnswer × StreamPool
  | [] => ([], p)
  | next :: steps =>
    match p.step next with
    | none => ([], p)
    | some (answer, p) =>
      let (answers, p) := p.run steps
      (answer :: answers, p)

end StreamPool

end PartyInputs
