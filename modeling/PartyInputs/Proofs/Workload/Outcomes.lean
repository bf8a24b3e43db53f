import PartyInputs.Proofs.Table.Leads
import PartyInputs.Proofs.Table.RoundTrip
import PartyInputs.Proofs.Workload.Limits

/-!
# What filling a sheet leaves behind

A sheet takes its values from a stream that goes on behind it, so what matters is not only what
stands in the sink but also where the stream is left. A row draws a value before it writes anything
for it. If the sheet is filled, the stream is behind the values that stand on it. If the sink fills
up, it is behind the value of which the first octet had no room, whether that octet is the separator
or a part of the value, but a line end that has no room costs no value.

* `Transcript.writeWidths_drawn`: **the values that rows draw** are the ones that are led in what
  there is room for and in one octet more.
* `Sheet.fill_complete`: a sheet on a sink that takes everything.
* `Sheet.fill_unfinished`: a sheet on a sink that fills up, or that cannot be flushed.
-/

namespace PartyInputs

namespace Transcript

variable {m : Medium} {t : Transcript} {octets : List UInt8} {limit : Nat}

/-! ## Rows -/

/-- A row draws the values that are led in what there is room for and in one octet more. -/
theorem writeRow_drawn (h : t.sink.Offered m octets) (hm : m.chunk ≠ some 0)
    (hl : m.limit = some limit) (hle : octets.length ≤ limit) (hstart : StartsLine octets)
    (width : Nat) (stream : ValueStream) :
    ∃ n, (t.writeRow width stream).source = stream.advance n ∧
      leadCount octets + n =
        leadCount ((octets ++ encodeRow (stream.take width).1).take (limit + 1)) := by
  obtain ⟨n, -, hdrawn, hsource⟩ := continueRow_source width 0 t stream
  have hcount : leadCount octets + (continueRow 0 width t stream).drawn =
      leadCount ((octets ++ encodeRow (Source.take width stream).1).take (limit + 1)) :=
    continueRow_drawn hm hl width 0 t octets stream h hle (iff_of_true rfl hstart)
  rw [ValueStream.source_take_eq, ValueStream.take_snd] at hsource
  rw [ValueStream.source_take_eq, hdrawn, Nat.zero_add] at hcount
  exact ⟨n, hsource, hcount⟩

/-- **The values that rows draw** are the ones that are led in what there is room for and in one
octet more. -/
theorem writeWidths_drawn (hm : m.chunk ≠ some 0) (hl : m.limit = some limit)
    (widths : List Nat) :
    ∀ (t : Transcript) (octets : List UInt8) (stream : ValueStream),
      t.sink.Offered m octets → octets.length ≤ limit → StartsLine octets →
      ∃ n, (t.writeWidths widths stream).stream = stream.advance n ∧
        leadCount octets + n =
          leadCount ((octets ++ encodeRows (stream.cut widths)).take (limit + 1)) := by
  induction widths with
  | nil =>
    intro t octets stream _ hle _
    refine ⟨0, stream.advance_zero.symm, ?_⟩
    rw [show encodeRows (stream.cut []) = [] from rfl, List.append_nil,
      List.take_of_length_le (by omega), Nat.add_zero]
  | cons width widths ih =>
    intro t octets stream h hle hstart
    obtain ⟨n, hsource, hcount⟩ := writeRow_drawn h hm hl hle hstart width stream
    rw [encodeRows_cut_cons, ← List.append_assoc]
    unfold writeWidths
    rcases writeRow_stream_offered_cases h hm width stream with
      ⟨hroom, t₁, hoffers, hrow⟩ | ⟨hroom, drawn, t₁, stream₁, hoffers, hrow⟩
    · -- what the row drew is led in its octets, since there is room for all of them
      rw [hrow] at hsource ⊢
      rw [Medium.hasRoom_iff_of_limit hl] at hroom
      rw [← encodeRows_cut_singleton, List.take_of_length_le (by omega)] at hcount
      have hstart₁ : StartsLine (octets ++ encodeRows (stream.cut [width])) := by
        rw [encodeRows_cut_singleton]
        exact startsLine_append_encodeRow octets _
      obtain ⟨n₁, hstream, hcount₁⟩ :=
        ih t₁ _ (stream.advance width) hoffers.offered hroom hstart₁
      refine ⟨n + n₁, ?_, by omega⟩
      rw [← ValueStream.advance_advance, ← hsource]
      exact hstream
    · -- what would follow is beyond the octet that the row was given up at
      rw [hrow] at hsource ⊢
      rw [Medium.hasRoom_iff_of_limit hl, Nat.not_le] at hroom
      refine ⟨n, hsource, ?_⟩
      rw [List.take_append_of_le_length hroom, encodeRows_cut_singleton, hcount]

end Transcript

namespace Sheet

/-! ## Sheets -/

/-- **A sheet on a sink that takes everything**, in whatever chunks and with whatever interruptions.
The counts are those of the sheet and of the octets that were added. Read again, these are the rows
of the grids, one grid below the other, and the values are the next ones of the stream, which is
left behind them. -/
theorem fill_complete {sink : Sink} (h : sink.medium.TakesAll) (s : Sheet)
    (stream : ValueStream) :
    let outcome := s.fill sink stream
    ∃ (added : List UInt8) (table : Table),
      outcome.sink.octets = sink.octets ++ added ∧
      outcome.result = .ok ⟨(s.grids.map Grid.rows).sum, s.valueCount, added.length⟩ ∧
      Table.read added = .ok table ∧
      table.widths = s.grids.flatMap (fun grid => List.replicate grid.rows grid.cols) ∧
      stream.take s.valueCount = (table.values, outcome.stream) := by
  intro outcome
  rcases s.fill_cases sink stream with ⟨hm, -⟩ | ⟨sink', hfill, hgains⟩
  · exact absurd h hm
  · have hwidths : (s.rowsFrom stream).map List.length = s.widths :=
      ValueStream.map_length_cut s.widths stream
    have hrows : (s.rowsFrom stream).length = (s.grids.map Grid.rows).sum := by
      rw [← List.length_map List.length, hwidths, widths, List.length_flatMap]
      simp only [Grid.widths, List.length_replicate]
    have hvalues : (s.rowsFrom stream).flatten.length = s.valueCount := by
      rw [s.flatten_rowsFrom, ValueStream.length_take]
    rw [show outcome = _ from hfill]
    refine ⟨encodeRows (s.rowsFrom stream), _, hgains.octets, ?_,
      Table.read_encodeRows (s.rowsFrom stream), hwidths, ?_⟩
    · simp only [Tally.addRows, Nat.zero_add, hrows, hvalues]
    · rw [Table.values, s.flatten_rowsFrom, ← ValueStream.take_snd]

/-- Four grids, one of them without rows and one without columns, behind a line that was there
before, in chunks of two octets with every third call interrupted. -/
theorem fill_complete_chunks :
    let sink : Sink :=
      { medium := { chunk := some 2, period := some ⟨3, by decide⟩ }, stored := #[0x39, 0x0a] }
    let s : Sheet := ⟨0, [⟨2, 2⟩, ⟨0, 3⟩, ⟨1, 0⟩, ⟨1, 1⟩]⟩
    let stream : ValueStream := .ofSeed 7 ⟨-3, 12⟩
    let outcome := s.fill sink stream
    ∃ (added : List UInt8) (table : Table),
      outcome.sink.octets = [0x39, 0x0a] ++ added ∧ outcome.result = .ok ⟨4, 5, added.length⟩ ∧
        Table.read added = .ok table ∧ table.widths = [2, 2, 0, 1] ∧
        stream.take 5 = (table.values, outcome.stream) := by
  intro sink s stream outcome
  have htakes : sink.medium.TakesAll := ⟨rfl, by decide, rfl⟩
  exact fill_complete htakes s stream

/-- Where a sheet leaves its stream on a sink with limited room: behind the values that are led in
what there is room for and in one octet more. -/
theorem stream_fill_of_limit {m : Medium} {sink : Sink} {limit : Nat} (h : sink.Offered m [])
    (hm : m.chunk ≠ some 0) (hl : m.limit = some limit) (s : Sheet) (stream : ValueStream) :
    (s.fill sink stream).stream =
      stream.advance (leadCount ((encodeRows (s.rowsFrom stream)).take (limit + 1))) := by
  obtain ⟨n, hstream, hcount⟩ := Transcript.writeWidths_drawn hm hl s.widths { sink } [] stream h
    (Nat.zero_le limit) (.inl rfl)
  rw [List.nil_append, show leadCount [] = 0 from rfl, Nat.zero_add] at hcount
  rw [rowsFrom, ← hcount, ← hstream, fill_eq]
  rcases Transcript.writeWidths s.widths { sink } stream with ⟨fault | _, t, stream'⟩
  · rfl
  · rfl

/-- **A sheet that is not filled.** The text is what the sheet leaves in a sink that takes
everything. A sink with less room is left with as many of its first octets as it has room for, and
fails in its way; the stream is behind the values whose first octets stand up to the offset at which
the sink filled up, this one included. A sink that has room for the text but cannot be flushed
holds all of it, and the stream is behind all values. -/
theorem fill_unfinished {sink : Sink} (hempty : sink.octets = [])
    (hchunk : sink.medium.chunk ≠ some 0) (s : Sheet) (stream : ValueStream) :
    let text := (s.fill {} stream).sink.octets
    let outcome := s.fill sink stream
    (∃ tally, (s.fill {} stream).result = .ok tally) ∧
      (∀ limit, sink.medium.limit = some limit → limit < text.length →
        outcome.result = .error (sink.medium.whenFull.getD .tookNothing) ∧
          outcome.sink.octets = text.take limit ∧
          outcome.stream = (stream.take
            ((List.range (limit + 1)).countP fun offset => Leads text offset)).2) ∧
      (∀ fault, sink.medium.HasRoom text.length → sink.medium.whenFlushed = some fault →
        outcome.result = .error fault ∧ outcome.sink.octets = text ∧
          outcome.stream = (stream.take s.valueCount).2) := by
  intro text outcome
  obtain ⟨tally, htally, htext⟩ : ∃ tally, (s.fill {} stream).result = .ok tally ∧
      text = encodeRows (s.rowsFrom stream) := by
    rcases s.fill_cases {} stream with ⟨hm, -⟩ | ⟨sink', hfill, hgains⟩
    · exact absurd Medium.takesAll_default hm
    · have hoctets : text = sink'.octets := congrArg (·.sink.octets) hfill
      refine ⟨_, congrArg (·.result) hfill, ?_⟩
      rw [hoctets, hgains.octets]
      exact List.nil_append _
  have hoffered : sink.Offered sink.medium [] := ⟨rfl, by rw [hempty, Medium.kept_nil]⟩
  obtain ⟨hoctets, hcases⟩ := s.fill_offered hoffered hchunk stream
  rw [← htext] at hoctets hcases
  refine ⟨⟨tally, htally⟩, ?_, ?_⟩
  · intro limit hl hlt
    have hfull : ¬ sink.medium.HasRoom text.length := by
      rw [Medium.hasRoom_iff_of_limit hl, Nat.not_le]
      exact hlt
    refine ⟨(hcases.resolve_left fun hroom => hfull hroom.1).2, ?_, ?_⟩
    · rw [Medium.kept, hl] at hoctets
      exact hoctets
    · rw [ValueStream.take_snd, ← leadCount_take hlt, htext]
      exact s.stream_fill_of_limit hoffered hchunk hl stream
  · intro fault hroom hflush
    obtain ⟨-, hstream, tally, hresult⟩ := hcases.resolve_right fun hfull => hfull.1 hroom
    refine ⟨?_, ?_, ?_⟩
    · rw [Sink.flush, hflush] at hresult
      exact hresult
    · rw [Medium.kept_of_hasRoom hroom] at hoctets
      exact hoctets
    · rw [ValueStream.take_snd]
      exact hstream

/-- The rows are `-1 -1`, `-1 -1`, a blank one and `1`. There is room for the first one only, and
the stream is behind three values, since the third one was drawn before its sign had no room. -/
theorem fill_unfinished_six :
    let s : Sheet := ⟨0, [⟨2, 2⟩, ⟨0, 3⟩, ⟨1, 0⟩, ⟨1, 1⟩]⟩
    let stream : ValueStream := .ofSeed 7 ⟨-3, 12⟩
    let small : Sink :=
      { medium := { limit := some 6, chunk := some 4, period := some ⟨2, by decide⟩ } }
    let unflushed : Sink := { medium := { limit := some 15, whenFlushed := some .noSpace } }
    (s.fill small stream).result = .error .tookNothing ∧
      (s.fill small stream).sink.octets = [0x2d, 0x31, 0x20, 0x2d, 0x31, 0x0a] ∧
      (s.fill small stream).stream = (stream.take 3).2 ∧
      (s.fill unflushed stream).result = .error .noSpace ∧
      (s.fill unflushed stream).sink.octets.length = 15 ∧
      (s.fill unflushed stream).stream = (stream.take 5).2 := by
  intro s stream small unflushed
  have htext : (s.fill {} stream).sink.octets =
      [0x2d, 0x31, 0x20, 0x2d, 0x31, 0x0a, 0x2d, 0x31, 0x20, 0x2d, 0x31, 0x0a, 0x0a, 0x31,
        0x0a] := by
    decide +kernel
  have hsmall : small.octets = [] := rfl
  have hunflushed : unflushed.octets = [] := rfl
  obtain ⟨-, hlimit, -⟩ := fill_unfinished hsmall (by decide) s stream
  obtain ⟨-, -, hflush⟩ := fill_unfinished hunflushed (by decide) s stream
  rw [htext] at hlimit hflush
  obtain ⟨hresult, hoctets, hstream⟩ := hlimit 6 rfl (by decide)
  obtain ⟨hresult', hoctets', hstream'⟩ := hflush .noSpace (by decide) rfl
  exact ⟨hresult, hoctets, hstream, hresult', congrArg List.length hoctets', hstream'⟩

end Sheet

end PartyInputs
