import PartyInputs.Proofs.Table.Attempts
import PartyInputs.Proofs.Workload.Filling

/-!
# Sheets on a medium that may fill up

A sheet is given up at the first row that fails. As for rows, the sink is then full, so it counts as
one that was offered the whole sheet.

* `Transcript.EndsOn`: what becomes of rows, with room for them or without.
* `Transcript.writeWidths_endsOn`: **rows of certain widths**, by induction on the widths.
* `Sheet.fill_offered`: **a sheet fails iff there is no room for it** or it cannot be flushed, and
  what is stored are the first octets of its text.
-/

namespace PartyInputs

namespace Transcript

variable {m : Medium} {t : Transcript} {octets : List UInt8}

/-! ## Rows -/

theorem encodeRows_cut_singleton (width : Nat) (stream : ValueStream) :
    encodeRows (stream.cut [width]) = encodeRow (stream.take width).1 :=
  List.append_nil _

/-- The next row, and the rows behind it. -/
theorem encodeRows_cut_cons (width : Nat) (widths : List Nat) (stream : ValueStream) :
    encodeRows (stream.cut (width :: widths)) =
      encodeRows (stream.cut [width]) ++ encodeRows ((stream.advance width).cut widths) := by
  rw [← encodeRows_append]
  rfl

/-- The next row of a stream. -/
theorem writeRow_stream_offered_cases (h : t.sink.Offered m octets) (hm : m.chunk ≠ some 0)
    (count : Nat) (stream : ValueStream) :
    let text := encodeRows (stream.cut [count])
    (m.HasRoom (octets ++ text).length ∧ ∃ t', Offers m octets t text t' ∧
        t.writeRow count stream = ⟨.ok count, count, t', stream.advance count⟩) ∨
      (¬ m.HasRoom (octets ++ text).length ∧ ∃ drawn t' stream', Offers m octets t text t' ∧
        t.writeRow count stream = ⟨.error m.fullFault, drawn, t', stream'⟩) := by
  intro text
  have htext : text = encodeRow (Source.take count stream).1 := by
    rw [ValueStream.source_take_eq]
    exact encodeRows_cut_singleton count stream
  obtain ⟨hresult, hoffers⟩ := t.writeRow_offered h hm count stream
  rw [← htext] at hresult hoffers
  rcases hrow : t.writeRow count stream with ⟨result, drawn, t', stream'⟩
  rw [hrow] at hresult hoffers
  by_cases hroom : m.HasRoom (octets ++ text).length
  · -- with room the row ends well, and then the stream is known
    rw [rowResult, if_pos hroom] at hresult
    cases hresult
    rcases t.writeRow_stream_cases count stream with ⟨-, fault, hfail⟩ | ⟨t₁, hok, -⟩
    · rw [hrow] at hfail
      cases hfail
    · rw [hrow] at hok
      cases hok
      exact .inl ⟨hroom, t', hoffers, rfl⟩
  · rw [rowResult, if_neg hroom] at hresult
    cases hresult
    exact .inr ⟨hroom, drawn, t', stream', hoffers, rfl⟩

/-- What becomes of rows whose text is offered behind `octets`: with room for all of it they end
well and leave the stream at `next`, without they fail as the full medium does. -/
def EndsOn (m : Medium) (octets : List UInt8) (t : Transcript) (text : List UInt8)
    (next : ValueStream) (outcome : RowsOutcome) : Prop :=
  (m.HasRoom (octets ++ text).length ∧ ∃ t', Offers m octets t text t' ∧
      outcome = ⟨.ok (), t', next⟩) ∨
    (¬ m.HasRoom (octets ++ text).length ∧ ∃ t' stream', Offers m octets t text t' ∧
      outcome = ⟨.error m.fullFault, t', stream'⟩)

namespace EndsOn

variable {t' : Transcript} {text more : List UInt8} {next : ValueStream} {outcome : RowsOutcome}

/-- No rows end well if there was room before. -/
theorem nil (h : t.sink.Offered m octets) (hroom : m.HasRoom octets.length) :
    EndsOn m octets t [] next ⟨.ok (), t, next⟩ :=
  .inl ⟨by rw [List.append_nil]; exact hroom, t, .refl h, rfl⟩

/-- Rows behind others end as they would alone, behind what the others offered. -/
theorem append (h : Offers m octets t text t')
    (hmore : EndsOn m (octets ++ text) t' more next outcome) :
    EndsOn m octets t (text ++ more) next outcome := by
  unfold EndsOn at hmore ⊢
  rw [← List.append_assoc]
  rcases hmore with ⟨hroom, t'', hoffers, heq⟩ | ⟨hroom, t'', stream', hoffers, heq⟩
  · exact .inl ⟨hroom, t'', h.trans hoffers, heq⟩
  · exact .inr ⟨hroom, t'', stream', h.trans hoffers, heq⟩

/-- Rows that are not reached, since the medium is full before, fail with the ones in front. -/
theorem of_full (h : Offers m octets t text t') (hfull : ¬ m.HasRoom (octets ++ text).length)
    (stream' : ValueStream) :
    EndsOn m octets t (text ++ more) next ⟨.error m.fullFault, t', stream'⟩ := by
  refine .inr ⟨?_, t', stream', h.of_full hfull more, rfl⟩
  rw [← List.append_assoc]
  exact fun hall => hfull hall.of_append

end EndsOn

/-- **Rows** on a medium that had room for what was offered before. -/
theorem writeWidths_endsOn (hm : m.chunk ≠ some 0) (widths : List Nat) :
    ∀ (t : Transcript) (octets : List UInt8) (stream : ValueStream),
      t.sink.Offered m octets → m.HasRoom octets.length →
        EndsOn m octets t (encodeRows (stream.cut widths)) (stream.advance widths.sum)
          (t.writeWidths widths stream) := by
  induction widths with
  | nil =>
    intro t octets stream h hbefore
    rw [List.sum_nil, ValueStream.advance_zero]
    exact .nil h hbefore
  | cons width widths ih =>
    intro t octets stream h _
    rw [encodeRows_cut_cons, List.sum_cons, ← ValueStream.advance_advance]
    unfold writeWidths
    rcases writeRow_stream_offered_cases h hm width stream with
      ⟨hroom, t₁, hoffers, hrow⟩ | ⟨hroom, drawn, t₁, stream₁, hoffers, hrow⟩
    · rw [hrow]
      exact .append hoffers (ih t₁ _ (stream.advance width) hoffers.offered hroom)
    · rw [hrow]
      exact .of_full hoffers hroom stream₁

end Transcript

namespace Sheet

/-! ## Sheets -/

/-- **A sheet on a medium with limited room**: what is stored are the first octets of its text. It
is written iff there is room for all of it, and then only flushing can fail; or else it fails as the
full medium does. -/
theorem fill_offered {m : Medium} {sink : Sink} (h : sink.Offered m []) (hm : m.chunk ≠ some 0)
    (s : Sheet) (stream : ValueStream) :
    let outcome := s.fill sink stream
    let text := encodeRows (s.rowsFrom stream)
    outcome.sink.octets = m.kept text ∧
      ((m.HasRoom text.length ∧ outcome.stream = stream.advance s.valueCount ∧
          ∃ tally, outcome.result = sink.flush.map fun () => tally) ∨
        (¬ m.HasRoom text.length ∧ outcome.result = .error m.fullFault)) := by
  intro outcome text
  rw [show outcome = _ from s.fill_eq sink stream]
  have hrows := Transcript.writeWidths_endsOn hm s.widths { sink } [] stream h Medium.hasRoom_zero
  rcases hrows with ⟨hroom, t, hoffers, hrows⟩ | ⟨hroom, t, stream', hoffers, hrows⟩
  · have hflush : t.finish = sink.flush := by
      rw [Transcript.finish, Sink.flush, Sink.flush, hoffers.offered.medium, h.medium]
    rw [hrows]
    refine ⟨hoffers.offered.octets, .inl ⟨hroom, ?_, t.tally, ?_⟩⟩
    · rw [← s.sum_widths]
    · simp only [hflush]
  · rw [hrows]
    exact ⟨hoffers.offered.octets, .inr ⟨hroom, rfl⟩⟩

/-- On a medium that can be flushed a sheet is filled iff there is room for all of it. -/
theorem fill_offered_cases {m : Medium} (hm : m.chunk ≠ some 0) (hflush : m.whenFlushed = none)
    (s : Sheet) (stream : ValueStream) :
    let outcome := s.fill { medium := m } stream
    let text := encodeRows (s.rowsFrom stream)
    outcome.sink.octets = m.kept text ∧
      ((m.HasRoom text.length ∧ ∃ tally, outcome.result = .ok tally) ∨
        (¬ m.HasRoom text.length ∧ outcome.result = .error m.fullFault)) := by
  obtain ⟨hoctets, ⟨hroom, -, tally, hresult⟩ | hfull⟩ :=
    s.fill_offered (Sink.offered_empty m) hm stream
  · rw [Sink.flush, hflush] at hresult
    exact ⟨hoctets, .inl ⟨hroom, tally, hresult⟩⟩
  · exact ⟨hoctets, .inr hfull⟩

end Sheet

end PartyInputs
