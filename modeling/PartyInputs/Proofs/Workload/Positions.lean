import Mathlib.Data.List.Basic
import PartyInputs.Proofs.Values.Selecting
import PartyInputs.Proofs.Workload.Recording
import PartyInputs.Workload.Pool

/-!
# Streams side by side, by counting

A seed and an interval determine one endless sequence of values, and a stream is a place in it. All
that can be done with streams is to go on from a place and to go on from it twice. So what the steps
of a pool give can be said without any stream: count the values that each of them has given, a copy
with the count of what it was copied from, and look the values up in the sequence.

* `Interval.numberAt`: **the sequence of a key and an interval**, without words that wrap.
* `PoolStep.Answers`: what a step gives at a position, and how many values it draws there.
* `Cursors.move`, `Cursors.Follows`: steps followed by counting.
* `StreamPool.step_pool`: **one step**, and `StreamPool.run_pool`: a run, from streams at known
  positions.
* `StreamPool.getElem?_of_step`: a step leaves the other streams alone.
* `StreamPool.run_follows`: **every run of steps is followed by counting**.
-/

namespace PartyInputs

/-! ## The sequence -/

namespace Interval

/-- The value at a position of the sequence that a key and an interval determine, as a number: the
word of the keystream there is multiplied by the number of integers in the interval, and the upper
half of the product is the offset from the lower bound. -/
def numberAt (r : Interval) (key : Key) (position : Nat) : Int :=
  r.lo.toInt + (key.word position).toNat * (r.hi.toInt - r.lo.toInt + 1) / 2 ^ 32

/-- The values at the next `count` positions. -/
def numbersFrom (r : Interval) (key : Key) (position count : Nat) : List Int :=
  (List.range' position count).map (r.numberAt key)

end Interval

namespace ValueStream

variable {s : ValueStream}

/-- What a stream gives at a position is the value of the sequence there. -/
theorem toInt_valueAt (hs : s.interval.Narrow) (position : Nat) :
    (s.valueAt position).toInt = s.interval.numberAt s.key position := by
  rw [valueAt, hs.toInt_select, Interval.offset, Interval.numberAt, ← hs.span_eq]
  norm_cast

/-- **The next values of a stream** are those of the sequence from its position on. -/
theorem map_toInt_take (n : Nat) : ∀ {s : ValueStream}, s.interval.Narrow →
    (s.take n).1.map Int64.toInt = s.interval.numbersFrom s.key s.position n := by
  induction n with
  | zero => intro s _; rfl
  | succ n ih =>
    intro s hs
    have hnext := ih (s := s.advance 1) hs
    rw [take_succ, draw_fst, draw_snd, List.map_cons, hnext, toInt_valueAt hs]
    simp [Interval.numbersFrom, List.range'_succ]

theorem advance_startingAt (key : Key) (r : Interval) (position n : Nat) :
    (startingAt key r position).advance n = startingAt key r (position + n) := rfl

end ValueStream

/-! ## Steps by counting -/

/-- The step, done with a stream at the position, draws `n` values, which are those of the sequence
from there on, and gives the answer. What is pulled by a sheet that fails counts as drawn. -/
inductive PoolStep.Answers (key : Key) (r : Interval) (position : Nat) :
    PoolStep → (n : Nat) → PoolAnswer → Prop where
  | draw {v : Int64} :
      v.toInt = r.numberAt key position → Answers key r position .draw 1 (.value v)
  | take {n : Nat} {vs : List Int64} :
      vs.map Int64.toInt = r.numbersFrom key position n →
      Answers key r position (.take n) n (.values vs)
  | drawAfter {n : Nat} {v : Int64} :
      v.toInt = r.numberAt key (position + n) →
      Answers key r position (.drawAfter n) (n + 1) (.value v)
  | survey {n : Nat} {vs : List Int64} :
      vs.map Int64.toInt = r.numbersFrom key position n →
      Answers key r position (.survey n) n
        (.survey (vs.foldl min Int64.maxValue) (vs.foldl max Int64.minValue)
          (vs.foldl (fun sum v => sum + v.toInt) 0))
  | fill {sheet : Sheet} {sink : Sink} {stream : ValueStream} {n : Nat} :
      stream = .startingAt key r position →
      (sheet.drawn sink stream).map Int64.toInt = r.numbersFrom key position n →
      n ≤ sheet.valueCount →
      (∀ tally, (sheet.fill sink stream).result = .ok tally → n = sheet.valueCount) →
      Answers key r position (.fill sheet sink) n (.filled (sheet.fill sink stream))
  | fork {count : Nat} : Answers key r position .fork 0 (.number count)
  | switch {index : Nat} : Answers key r position (.switch index) 0 (.number index)
  | sizeHint : Answers key r position .sizeHint 0 (.bounds (UInt64.size - 1) none)

/-- Positions in the sequence, one for each stream, and which of the streams is current. -/
structure Cursors where
  positions : List Nat := [0]
  current : Nat := 0

namespace Cursors

/-- The positions after a step that drew `n` values: the current one is `n` further on. A fork puts a
copy of it behind the others, and a switch only says which is current. -/
def move (c : Cursors) (step : PoolStep) (n : Nat) : Cursors :=
  match step with
  | .fork => { c with positions := c.positions ++ c.positions[c.current]?.toList }
  | .switch index => { c with current := index }
  | _ => { c with positions := c.positions.modify c.current (· + n) }

/-- Steps give answers, each at the position that counting gives, and the positions end up as `c'`.
Steps that have no current stream are not done. -/
inductive Follows (key : Key) (r : Interval) :
    (c : Cursors) → List PoolStep → List PoolAnswer → (c' : Cursors) → Prop where
  | nil {c : Cursors} : Follows key r c [] [] c
  | stop {c : Cursors} {step : PoolStep} {steps : List PoolStep} :
      c.positions[c.current]? = none → Follows key r c (step :: steps) [] c
  | next {c c' : Cursors} {step : PoolStep} {steps : List PoolStep} {position n : Nat}
      {answer : PoolAnswer} {answers : List PoolAnswer} :
      c.positions[c.current]? = some position →
      step.Answers key r position n answer →
      Follows key r (c.move step n) steps answers c' →
      Follows key r c (step :: steps) (answer :: answers) c'

/-- The streams of a key and an interval at the positions. -/
def pool (c : Cursors) (key : Key) (r : Interval) : StreamPool :=
  ⟨c.positions.map (.startingAt key r), c.current⟩

theorem getElem?_streams_pool (c : Cursors) (key : Key) (r : Interval) (i : Nat) :
    (c.pool key r).streams[i]? = c.positions[i]?.map (.startingAt key r) :=
  List.getElem?_map

/-- To put the current stream `n` values further on is to count them. -/
theorem update_pool {c : Cursors} {position : Nat} (h : c.positions[c.current]? = some position)
    (key : Key) (r : Interval) (n : Nat) :
    (c.pool key r).update ((ValueStream.startingAt key r position).advance n) =
      pool { c with positions := c.positions.modify c.current (· + n) } key r := by
  simp [StreamPool.update, pool, List.modify_eq_set_getElem?, h, ValueStream.advance_startingAt]

end Cursors

namespace StreamPool

variable {r : Interval}

/-! ## One step -/

/-- **One step** of streams at known positions: it is not done if there is no current stream; or else
it gives what the sequence holds at the position of the current one, and the positions are moved. -/
theorem step_pool (key : Key) (hr : r.Narrow) (c : Cursors) (step : PoolStep) :
    (c.positions[c.current]? = none ∧ (c.pool key r).step step = none) ∨
      ∃ position n answer, c.positions[c.current]? = some position ∧
        step.Answers key r position n answer ∧
        (c.pool key r).step step = some (answer, (c.move step n).pool key r) := by
  have hstream := c.getElem?_streams_pool key r c.current
  have hcurrent : (c.pool key r).current = c.current := rfl
  rcases hposition : c.positions[c.current]? with _ | position
  · rw [hposition, Option.map_none] at hstream
    exact .inl ⟨rfl, by rw [StreamPool.step, hcurrent, hstream, Option.map_none]⟩
  · rw [hposition, Option.map_some] at hstream
    rw [StreamPool.step, hcurrent, hstream, Option.map_some]
    -- the current stream, and what it gives next
    generalize hs : ValueStream.startingAt key r position = s
    have hnarrow : s.interval.Narrow := by rw [← hs]; exact hr
    have hvalues : ∀ n, (s.take n).1.map Int64.toInt = r.numbersFrom key position n := by
      intro n
      rw [ValueStream.map_toInt_take n hnarrow, ← hs]
      rfl
    have hvalue : ∀ n, (s.advance n).draw.1.toInt = r.numberAt key (position + n) := by
      intro n
      rw [ValueStream.draw_fst, ValueStream.toInt_valueAt (s := s.advance n) hnarrow, ← hs]
      rfl
    have hupdate : ∀ n, (c.pool key r).update (s.advance n) =
        Cursors.pool { c with positions := c.positions.modify c.current (· + n) } key r := by
      intro n
      rw [← hs]
      exact Cursors.update_pool hposition key r n
    refine .inr ⟨position, ?_⟩
    cases step with
    | draw =>
      have hfirst : s.draw.1.toInt = r.numberAt key position := by
        simpa only [s.advance_zero, Nat.add_zero] using hvalue 0
      refine ⟨1, _, rfl, .draw hfirst, congrArg (fun p => some (_, p)) ?_⟩
      exact (congrArg _ s.draw_snd).trans (hupdate 1)
    | take n =>
      refine ⟨n, _, rfl, .take (hvalues n), congrArg (fun p => some (_, p)) ?_⟩
      exact (congrArg _ (s.take_snd n)).trans (hupdate n)
    | drawAfter n =>
      refine ⟨n + 1, _, rfl, .drawAfter (hvalue n), congrArg (fun p => some (_, p)) ?_⟩
      rw [(s.advance n).draw_snd, ValueStream.advance_advance]
      exact hupdate (n + 1)
    | survey n =>
      refine ⟨n, _, rfl, .survey (hvalues n), congrArg (fun p => some (_, p)) ?_⟩
      exact (congrArg _ (s.take_snd n)).trans (hupdate n)
    | fill sheet sink =>
      refine ⟨(sheet.drawn sink s).length, _, rfl, .fill hs.symm ?_ ?_ ?_,
        congrArg (fun p => some (_, p)) ?_⟩
      · rw [← hvalues, ← sheet.drawn_eq_take]
      · exact sheet.length_drawn_le sink s
      · intro tally hok
        exact Sheet.length_drawn_of_ok hok
      · rw [sheet.stream_fill]
        exact hupdate _
    | fork =>
      refine ⟨0, .number ((c.pool key r).streams.length + 1), rfl, .fork, ?_⟩
      simp [Cursors.move, Cursors.pool, hposition, hs]
    | switch index => exact ⟨0, _, rfl, .switch, rfl⟩
    | sizeHint =>
      refine ⟨0, _, rfl, .sizeHint, congrArg (fun p => some (_, p)) ?_⟩
      exact congrArg (fun positions => Cursors.pool ⟨positions, c.current⟩ key r)
        (List.modify_id ..).symm

/-- **A step leaves the other streams alone.** -/
theorem getElem?_of_step {p p' : StreamPool} {step : PoolStep} {answer : PoolAnswer}
    (h : p.step step = some (answer, p')) {i : Nat} (hne : i ≠ p.current)
    (hi : i < p.streams.length) : p'.streams[i]? = p.streams[i]? := by
  obtain ⟨s, -, heq⟩ := Option.map_eq_some_iff.1 h
  have hupdate : ∀ s', (p.update s').streams[i]? = p.streams[i]? :=
    fun s' => List.getElem?_set_ne hne.symm
  cases step with
  | fork =>
    cases heq
    exact List.getElem?_append_left hi
  | switch index => cases heq; rfl
  | sizeHint => cases heq; rfl
  | draw => cases heq; exact hupdate _
  | take n => cases heq; exact hupdate _
  | drawAfter n => cases heq; exact hupdate _
  | survey n => cases heq; exact hupdate _
  | fill sheet sink => cases heq; exact hupdate _

/-! ## Runs -/

theorem run_cons (p : StreamPool) (step : PoolStep) (steps : List PoolStep) :
    p.run (step :: steps) =
      match p.step step with
      | none => ([], p)
      | some (answer, p) => (answer :: (p.run steps).1, (p.run steps).2) := rfl

/-- A run from streams at known positions is followed by counting. -/
theorem run_pool (key : Key) (hr : r.Narrow) (steps : List PoolStep) : ∀ c : Cursors,
    ∃ c', Cursors.Follows key r c steps ((c.pool key r).run steps).1 c' ∧
      ((c.pool key r).run steps).2 = c'.pool key r := by
  induction steps with
  | nil => intro c; exact ⟨c, .nil, rfl⟩
  | cons step steps ih =>
    intro c
    rw [run_cons]
    rcases step_pool key hr c step with
      ⟨hnone, hstep⟩ | ⟨position, n, answer, hposition, hanswers, hstep⟩
    · rw [hstep]
      exact ⟨c, .stop hnone, rfl⟩
    · rw [hstep]
      obtain ⟨c', hfollows, hpool⟩ := ih (c.move step n)
      exact ⟨c', .next hposition hanswers hfollows, hpool⟩

/-- **Every run of steps is followed by counting.** From one stream of a seed on, whatever is drawn,
copied, switched to and written, each answer holds the values of one fixed sequence at the positions
that come from counting what the stream, and those that it was copied from, have given so far; and
where the streams stand in the end comes from counting too. A step moves no stream but the current
one. -/
theorem run_follows (seed : UInt64) {r : Interval} (hr : r.Narrow) (steps : List PoolStep) :
    let outcome := (singleton (.ofSeed seed r)).run steps
    (∃ c, Cursors.Follows (Key.ofSeed seed) r { positions := [0], current := 0 } steps outcome.1 c ∧
        outcome.2.streams = c.positions.map (.startingAt (Key.ofSeed seed) r) ∧
        outcome.2.current = c.current) ∧
      ∀ (p p' : StreamPool) (step : PoolStep) (answer : PoolAnswer),
        p.step step = some (answer, p') →
        ∀ i, i ≠ p.current → i < p.streams.length → p'.streams[i]? = p.streams[i]? := by
  intro outcome
  obtain ⟨c, hfollows, hpool⟩ := run_pool (Key.ofSeed seed) hr steps {}
  have hstart : Cursors.pool {} (Key.ofSeed seed) r = singleton (.ofSeed seed r) := rfl
  rw [hstart] at hfollows hpool
  refine ⟨⟨c, hfollows, congrArg streams hpool, congrArg current hpool⟩, ?_⟩
  intro p p' step answer hstep i hne hi
  exact getElem?_of_step hstep hne hi

/-- After two values a copy is made; the stream and the copy then both give the third value of the
sequence, each on its own. -/
theorem run_follows_fork :
    let r : Interval := ⟨-1, 0⟩
    let outcome := (singleton (.ofSeed 7 r)).run [.take 2, .fork, .draw, .switch 1, .draw]
    r.Narrow ∧ ∃ vs v w, outcome.1 =
        [.values vs, .number 2, .value v, .number 1, .value w] ∧
      vs.map Int64.toInt = r.numbersFrom (Key.ofSeed 7) 0 2 ∧
      v.toInt = r.numberAt (Key.ofSeed 7) 2 ∧ w.toInt = r.numberAt (Key.ofSeed 7) 2 := by
  intro r outcome
  have hr : r.Narrow := ⟨by decide, by decide⟩
  obtain ⟨⟨c, hfollows, -, -⟩, -⟩ := run_follows 7 hr [.take 2, .fork, .draw, .switch 1, .draw]
  refine ⟨hr, _, _, _, rfl, ?_⟩
  -- the answers, one after the other, each at the position that is counted
  obtain _ | _ | ⟨hat0, ⟨htake⟩, hfollows⟩ := hfollows
  cases hat0
  obtain _ | _ | ⟨-, ⟨⟩, hfollows⟩ := hfollows
  obtain _ | _ | ⟨hat2, ⟨hdraw⟩, hfollows⟩ := hfollows
  cases hat2
  obtain _ | _ | ⟨-, ⟨⟩, hfollows⟩ := hfollows
  obtain _ | _ | ⟨hcopy, ⟨hdraw'⟩, -⟩ := hfollows
  cases hcopy
  exact ⟨‹_›, hdraw, hdraw'⟩

end StreamPool

end PartyInputs
