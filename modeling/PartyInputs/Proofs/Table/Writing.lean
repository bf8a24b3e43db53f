import PartyInputs.Proofs.Sink.Storing
import PartyInputs.Table.Transcript

/-!
# What a transcript holds after rows were written

A row is written value by value, each drawn when it is due, with the separators and the line end as
pieces of their own. `Transcript.Gains` says what is left of all this once nothing failed: the
encoding of the rows stands in the sink, and the tally has counted them.

* `Source.take`: the next values of a source and the source behind them.
* `Transcript.writeRow_cases`: **a row that succeeds** has drawn exactly its values, in order, and
  gained exactly their encoding; on a medium that takes everything it succeeds.
* `Transcript.gains_of_writeEach`, `Transcript.writeEach_of_takesAll`: the same for a list of rows.
-/

namespace PartyInputs

/-! ## Values ahead -/

/-- The next `n` values of a source and the source behind them. -/
def Source.take {σ : Type} [Source σ] : Nat → σ → List Int64 × σ
  | 0, source => ([], source)
  | n + 1, source =>
    let (v, source) := Source.draw source
    let (vs, source) := take n source
    (v :: vs, source)

namespace Source

variable {σ : Type} [Source σ]

@[simp] theorem take_zero (source : σ) : take 0 source = ([], source) := rfl

theorem take_succ (n : Nat) (source : σ) :
    take (n + 1) source =
      ((draw source).1 :: (take n (draw source).2).1, (take n (draw source).2).2) := rfl

@[simp] theorem length_take (n : Nat) : ∀ source : σ, (take n source).1.length = n := by
  induction n with
  | zero => intro source; rfl
  | succ n ih => intro source; rw [take_succ, List.length_cons, ih]

/-- A list gives its values in order and is used up. -/
theorem take_length_list (values : List Int64) : take values.length values = (values, []) := by
  induction values with
  | nil => rfl
  | cons v vs ih =>
    rw [List.length_cons, take_succ]
    show (v :: (take vs.length vs).1, (take vs.length vs).2) = (v :: vs, [])
    rw [ih]

/-- What is left of a list behind its first values. -/
theorem take_list_snd (n : Nat) : ∀ values : List Int64, (take n values).2 = values.drop n := by
  induction n with
  | zero => intro values; rfl
  | succ n ih =>
    intro values
    rw [take_succ]
    cases values with
    | nil => exact (ih []).trans List.drop_nil
    | cons v vs => exact ih vs

end Source

/-! ## The octets of a row, piece by piece -/

/-- The octets of values that stand behind others on their row: a separator is in front of each. -/
def encodeFurther (values : List Int64) : List UInt8 :=
  values.flatMap fun v => separator :: encodeValue v

theorem encodeFurther_cons (v : Int64) (vs : List Int64) :
    encodeFurther (v :: vs) = separator :: encodeValue v ++ encodeFurther vs := rfl

theorem encodeValues_cons (v : Int64) (vs : List Int64) :
    encodeValues (v :: vs) = encodeValue v ++ encodeFurther vs := by
  induction vs generalizing v with
  | nil => simp [encodeValues, encodeFurther]
  | cons w ws ih =>
    rw [encodeFurther_cons, List.cons_append, ← ih w]
    rfl

/-- What is still to be written of a row in which `written` values stand already. -/
def encodeRemaining (written : Nat) (values : List Int64) : List UInt8 :=
  if written = 0 then encodeValues values else encodeFurther values

theorem encodeRemaining_nil (written : Nat) : encodeRemaining written [] = [] := by
  unfold encodeRemaining
  split <;> rfl

/-- What stands in front of a value behind `written` others: a separator unless it is the first
one. -/
def encodeFront (written : Nat) : List UInt8 := if written = 0 then [] else [separator]

/-- What is written for a value in a row in which `written` values stand already. -/
def encodeNext (written : Nat) (v : Int64) : List UInt8 := encodeFront written ++ encodeValue v

theorem encodeRemaining_cons (written : Nat) (v : Int64) (vs : List Int64) :
    encodeRemaining written (v :: vs) =
      encodeNext written v ++ encodeRemaining (written + 1) vs := by
  unfold encodeRemaining encodeNext encodeFront
  by_cases h : written = 0
  · simp [h, encodeValues_cons]
  · simp [h, encodeFurther_cons]

/-! ## Tallies -/

namespace Tally

/-- The tally after the octets of pieces were stored that do not end a row. -/
def addOctets (c : Tally) (n : Nat) : Tally := { c with octets := c.octets + n }

/-- The tally after rows were written. -/
def addRows (c : Tally) (rows : List (List Int64)) : Tally where
  rows := c.rows + rows.length
  values := c.values + rows.flatten.length
  octets := c.octets + (encodeRows rows).length

theorem addRows_append (c : Tally) (rows more : List (List Int64)) :
    c.addRows (rows ++ more) = (c.addRows rows).addRows more := by
  simp only [addRows, List.length_append, List.flatten_append, encodeRows_append, Nat.add_assoc]

end Tally

namespace Transcript

/-- `t'` is what `t` becomes when `rows` are written to their end. -/
structure Gains (t : Transcript) (rows : List (List Int64)) (t' : Transcript) : Prop where
  sink : t.sink.Gains (encodeRows rows) t'.sink
  tally : t'.tally = t.tally.addRows rows

namespace Gains

variable {t t' t'' : Transcript} {rows more : List (List Int64)}

theorem refl (t : Transcript) : t.Gains [] t := ⟨.refl _, rfl⟩

theorem trans (h : t.Gains rows t') (h' : t'.Gains more t'') : t.Gains (rows ++ more) t'' := by
  refine ⟨?_, ?_⟩
  · rw [encodeRows_append]; exact h.sink.trans h'.sink
  · rw [h'.tally, h.tally, Tally.addRows_append]

end Gains

/-! ## Pieces -/

/-- `t'` is what `t` becomes when the octets of pieces are stored that do not end a row. -/
structure Holds (t : Transcript) (octets : List UInt8) (t' : Transcript) : Prop where
  sink : t.sink.Gains octets t'.sink
  tally : t'.tally = t.tally.addOctets octets.length

theorem Holds.refl (t : Transcript) : t.Holds [] t := ⟨.refl _, rfl⟩

theorem Holds.trans {t t' t'' : Transcript} {a b : List UInt8} (h : t.Holds a t')
    (h' : t'.Holds b t'') : t.Holds (a ++ b) t'' := by
  refine ⟨h.sink.trans h'.sink, ?_⟩
  rw [h'.tally, h.tally, List.length_append]
  simp only [Tally.addOctets, Nat.add_assoc]

/-- A piece is stored as a whole and counted, or it fails; on a medium that takes everything it does
not fail. -/
theorem put_cases (t : Transcript) (piece : List UInt8) :
    (¬ t.sink.medium.TakesAll ∧ ∃ fault t', t.put piece = (.error fault, t')) ∨
      ∃ t', t.put piece = (.ok (), t') ∧ t.Holds piece t' := by
  unfold put
  rcases t.sink.put_cases piece with ⟨hm, fault, s', hput⟩ | ⟨s', hput, hg⟩
  · exact .inl ⟨hm, fault, { t with sink := s' }, by rw [hput]⟩
  · exact .inr ⟨⟨s', t.tally.addOctets piece.length⟩, by rw [hput]; rfl, hg, rfl⟩

/-! ## Rows -/

/-- The end of a row of `count` values: a line end, and the row is counted with its values. -/
theorem endRow_cases (t : Transcript) (count : Nat) :
    (¬ t.sink.medium.TakesAll ∧ ∃ fault t', t.endRow count = (.error fault, t')) ∨
      ∃ t', t.endRow count = (.ok count, t') ∧ t.sink.Gains [terminator] t'.sink ∧
        t'.tally = ⟨t.tally.rows + 1, t.tally.values + count, t.tally.octets + 1⟩ := by
  unfold endRow
  rcases t.put_cases [terminator] with ⟨hm, fault, t', hput⟩ | ⟨t', hput, hh⟩
  · exact .inl ⟨hm, fault, t', by rw [hput]⟩
  · rw [hput]
    refine .inr ⟨_, rfl, hh.sink, ?_⟩
    show (⟨t'.tally.rows + 1, t'.tally.values + count, t'.tally.octets⟩ : Tally) = _
    rw [hh.tally]
    rfl

variable {σ : Type} [Source σ]

theorem continueRow_zero (written : Nat) (t : Transcript) (source : σ) :
    continueRow written 0 t source =
      ⟨(t.endRow written).1, written, (t.endRow written).2, source⟩ := rfl

/-- What stands in front of a value: nothing if it is the first one of its row. -/
def putSeparator (t : Transcript) (written : Nat) : Except Fault Unit × Transcript :=
  if written = 0 then (.ok (), t) else t.put [separator]

theorem continueRow_succ (written remaining : Nat) (t : Transcript) (source : σ) :
    continueRow written (remaining + 1) t source =
      match t.putSeparator written with
      | (.error fault, t) => ⟨.error fault, written + 1, t, (Source.draw source).2⟩
      | (.ok (), t) =>
        match t.put (encodeValue (Source.draw source).1) with
        | (.error fault, t) => ⟨.error fault, written + 1, t, (Source.draw source).2⟩
        | (.ok (), t) => continueRow (written + 1) remaining t (Source.draw source).2 := rfl

theorem putSeparator_cases (t : Transcript) (written : Nat) :
    (¬ t.sink.medium.TakesAll ∧ ∃ fault t', t.putSeparator written = (.error fault, t')) ∨
      ∃ t', t.putSeparator written = (.ok (), t') ∧
        t.Holds (encodeFront written) t' := by
  unfold putSeparator encodeFront
  by_cases h : written = 0
  · simp only [h, if_true]
    exact .inr ⟨t, rfl, .refl t⟩
  · simp only [h, if_false]
    exact t.put_cases [separator]

/-- One more value of a row: the separator in front of it, the value itself, and then the rest of
the row from the source behind the value. -/
theorem continueRow_succ_cases (written remaining : Nat) (t : Transcript) (source : σ) :
    (¬ t.sink.medium.TakesAll ∧
        ∃ fault, (continueRow written (remaining + 1) t source).result = .error fault) ∨
      ∃ t', t.Holds (encodeNext written (Source.draw source).1) t' ∧
        continueRow written (remaining + 1) t source =
          continueRow (written + 1) remaining t' (Source.draw source).2 := by
  rw [continueRow_succ]
  rcases t.putSeparator_cases written with ⟨hm, fault, t₁, hput⟩ | ⟨t₁, hput, hh₁⟩
  · exact .inl ⟨hm, fault, by rw [hput]⟩
  · rw [hput]
    rcases t₁.put_cases (encodeValue (Source.draw source).1) with
      ⟨hm, fault, t₂, hput₂⟩ | ⟨t₂, hput₂, hh₂⟩
    · exact .inl ⟨fun h => hm (hh₁.sink.takesAll h), fault, by simp only [hput₂]⟩
    · exact .inr ⟨t₂, hh₁.trans hh₂, by simp only [hput₂]⟩

/-- The rest of a row either fails or draws the values that are due, stores them with the line end
behind them and counts one row. -/
theorem continueRow_cases (remaining : Nat) : ∀ (written : Nat) (t : Transcript) (source : σ),
    (¬ t.sink.medium.TakesAll ∧
        ∃ fault, (continueRow written remaining t source).result = .error fault) ∨
      ∃ t', continueRow written remaining t source =
          ⟨.ok (written + remaining), written + remaining, t', (Source.take remaining source).2⟩ ∧
        t.sink.Gains
          (encodeRemaining written (Source.take remaining source).1 ++ [terminator]) t'.sink ∧
        t'.tally = ⟨t.tally.rows + 1, t.tally.values + (written + remaining),
          t.tally.octets +
            ((encodeRemaining written (Source.take remaining source).1).length + 1)⟩ := by
  induction remaining with
  | zero =>
    intro written t source
    rw [continueRow_zero]
    rcases t.endRow_cases written with ⟨hm, fault, t', hend⟩ | ⟨t', hend, hg, ht⟩
    · exact .inl ⟨hm, fault, by rw [hend]⟩
    · refine .inr ⟨t', by rw [hend]; rfl, ?_, ?_⟩
      · rw [Source.take_zero, encodeRemaining_nil]; exact hg
      · rw [Source.take_zero, encodeRemaining_nil]; exact ht
  | succ remaining ih =>
    intro written t source
    rcases continueRow_succ_cases written remaining t source with hfail | ⟨t₁, hh, heq⟩
    · exact .inl hfail
    · rw [heq]
      rcases ih (written + 1) t₁ (Source.draw source).2 with ⟨hm, hfail⟩ | ⟨t', hrest, hg, ht⟩
      · exact .inl ⟨fun h => hm (hh.sink.takesAll h), hfail⟩
      · have hcount : written + 1 + remaining = written + (remaining + 1) := by omega
        refine .inr ⟨t', ?_, ?_, ?_⟩
        · rw [hrest, hcount, Source.take_succ]
        · rw [Source.take_succ, encodeRemaining_cons, List.append_assoc]
          exact hh.sink.trans hg
        · rw [ht, hh.tally, hcount, Source.take_succ, encodeRemaining_cons]
          simp only [Tally.addOctets, List.length_append, Tally.mk.injEq, true_and]
          omega

/-- The values that the rest of a row draws are gone from the source, and no others, however the row
ends. -/
theorem continueRow_source (remaining : Nat) : ∀ (written : Nat) (t : Transcript) (source : σ),
    ∃ n, n ≤ remaining ∧ (continueRow written remaining t source).drawn = written + n ∧
      (continueRow written remaining t source).source = (Source.take n source).2 := by
  induction remaining with
  | zero => intro written t source; exact ⟨0, Nat.le_refl 0, rfl, rfl⟩
  | succ remaining ih =>
    intro written t source
    rw [continueRow_succ]
    rcases t.putSeparator written with ⟨fault | _, t₁⟩
    · exact ⟨1, by omega, rfl, rfl⟩
    · rcases hput : t₁.put (encodeValue (Source.draw source).1) with ⟨fault | _, t₂⟩
      · simp only [hput]
        exact ⟨1, by omega, rfl, rfl⟩
      · simp only [hput]
        obtain ⟨n, hn, hdrawn, hsource⟩ := ih (written + 1) t₂ (Source.draw source).2
        exact ⟨n + 1, by omega, by omega, hsource⟩

/-- **A row that succeeds** has drawn its values in order, each once, and gained exactly their
encoding. On a medium that takes everything no row fails. -/
theorem writeRow_cases (t : Transcript) (count : Nat) (source : σ) :
    (¬ t.sink.medium.TakesAll ∧ ∃ fault, (t.writeRow count source).result = .error fault) ∨
      ∃ t', t.writeRow count source =
          ⟨.ok count, count, t', (Source.take count source).2⟩ ∧
        t.Gains [(Source.take count source).1] t' := by
  unfold writeRow
  rcases continueRow_cases count 0 t source with hfail | ⟨t', heq, hg, ht⟩
  · exact .inl hfail
  · rw [Nat.zero_add] at heq ht
    have hrow : encodeRemaining 0 (Source.take count source).1 ++ [terminator] =
        encodeRows [(Source.take count source).1] := by
      simp [encodeRemaining, encodeRows, encodeRow]
    refine .inr ⟨t', heq, by rw [← hrow]; exact hg, ?_⟩
    rw [ht, Tally.addRows, ← hrow]
    simp

/-- Rows of which none fails are gained one after the other, on whatever medium. -/
theorem gains_of_writeEach (rows : List (List Int64)) :
    ∀ {t : Transcript}, (∀ outcome ∈ (t.writeEach rows).1, ∃ n, outcome.result = .ok n) →
      t.Gains rows (t.writeEach rows).2 := by
  induction rows with
  | nil => intro t _; exact .refl t
  | cons row rows ih =>
    intro t h
    obtain ⟨n, hn⟩ := h (t.writeValues row) List.mem_cons_self
    rcases t.writeRow_cases row.length row with ⟨-, fault, hfault⟩ | ⟨t₁, hrow, hg⟩
    · rw [writeValues, hfault] at hn
      cases hn
    · rw [Source.take_length_list] at hrow hg
      have hrest := ih fun outcome ho => h outcome (List.mem_cons_of_mem _ ho)
      simp only [writeValues, hrow] at hrest
      simp only [writeEach, writeValues, hrow]
      exact hg.trans hrest

/-- On a medium that takes everything rows are written one after the other and none fails. -/
theorem writeEach_of_takesAll (rows : List (List Int64)) :
    ∀ {t : Transcript}, t.sink.medium.TakesAll →
      (t.writeEach rows).1.map (·.result) = rows.map (fun row => .ok row.length) ∧
        t.Gains rows (t.writeEach rows).2 := by
  induction rows with
  | nil => intro t _; exact ⟨rfl, .refl t⟩
  | cons row rows ih =>
    intro t h
    rcases t.writeRow_cases row.length row with ⟨hm, -⟩ | ⟨t₁, hrow, hg⟩
    · exact absurd h hm
    · rw [Source.take_length_list] at hrow hg
      obtain ⟨hresults, hrest⟩ := ih (hg.sink.takesAll h)
      refine ⟨?_, ?_⟩
      · simp only [writeEach, writeValues, hrow, List.map_cons, hresults]
      · simp only [writeEach, writeValues, hrow]
        exact hg.trans hrest

end Transcript

end PartyInputs
