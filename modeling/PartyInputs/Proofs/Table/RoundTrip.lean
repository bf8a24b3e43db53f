import PartyInputs.Proofs.Table.Blanks
import PartyInputs.Proofs.Table.Reading
import PartyInputs.Proofs.Table.Writing

/-!
# Rows that were written are read back

Writing goes piece by piece; reading takes the whole text, cuts it at line feeds, each line at
blanks, and reads each token. Both sides meet in the text of the rows, `Table.textOf`.

* `encodeRows_eq_encode_textOf`: the octets of rows are the UTF-8 encoding of that text.
* `Table.lines_textOf`, `Table.tokens_valuesText`: cutting it gives back the rows, the empty ones
  included, and their numerals.
* `Table.read_encodeRows`: **reading undoes the encoding** of any rows.
* `Table.read_written`: the same for what a transcript wrote, with its counters.
-/

namespace PartyInputs

open Text

namespace Table

/-! ## The text of rows -/

/-- The text of values that stand behind others on their row. -/
def furtherText (values : List Int64) : List Char :=
  values.flatMap fun v => ' ' :: Decimal.numeral v.toInt

/-- The text of the values of a row. -/
def valuesText : List Int64 → List Char
  | [] => []
  | v :: vs => Decimal.numeral v.toInt ++ furtherText vs

/-- The text of rows, each with a line feed at its end. -/
def textOf (rows : List (List Int64)) : List Char :=
  rows.flatMap fun row => valuesText row ++ ['\n']

theorem furtherText_cons (v : Int64) (vs : List Int64) :
    furtherText (v :: vs) = ' ' :: valuesText (v :: vs) := rfl

theorem textOf_cons (row : List Int64) (rows : List (List Int64)) :
    textOf (row :: rows) = valuesText row ++ '\n' :: textOf rows := by
  simp [textOf]

end Table

open Table

theorem encodeFurther_eq_encode (values : List Int64) :
    encodeFurther values = Utf8.encode (furtherText values) := by
  induction values with
  | nil => rfl
  | cons v vs ih =>
    have hspace : Utf8.encodeChar ' ' = [separator] := by decide
    rw [furtherText_cons, valuesText, Utf8.encode_cons, Utf8.encode_append, hspace,
      encodeFurther_cons, ih]
    rfl

theorem encodeValues_eq_encode (values : List Int64) :
    encodeValues values = Utf8.encode (valuesText values) := by
  cases values with
  | nil => rfl
  | cons v vs =>
    rw [encodeValues_cons, encodeFurther_eq_encode, valuesText, Utf8.encode_append]
    rfl

/-- The octets of rows are the encoding of their text. -/
theorem encodeRows_eq_encode_textOf (rows : List (List Int64)) :
    encodeRows rows = Utf8.encode (textOf rows) := by
  induction rows with
  | nil => rfl
  | cons row rows ih =>
    have hend : Utf8.encodeChar '\n' = [terminator] := by decide
    rw [encodeRows_cons, encodeRow, ih, textOf_cons, Utf8.encode_append, Utf8.encode_cons, hend,
      encodeValues_eq_encode, List.append_assoc]

namespace Table

/-! ## Cutting the text -/

theorem isBlank_of_isDigit {c : Char} (h : c.isDigit) : isBlank c = false := by
  refine Bool.eq_false_iff.2 fun hb => ?_
  simp only [isBlank, Bool.or_eq_true, decide_eq_true_eq] at hb
  rcases hb with (((rfl | rfl) | rfl) | rfl) | rfl <;> revert h <;> decide

/-- A numeral holds digits and a sign, so no blank. -/
theorem isBlank_of_mem_numeral {i : Int} {c : Char} (h : c ∈ Decimal.numeral i) :
    isBlank c = false := by
  cases i with
  | ofNat n => exact isBlank_of_isDigit (Decimal.isDigit_of_mem_digits h)
  | negSucc n =>
    rcases List.mem_cons.1 h with rfl | h
    · decide
    · exact isBlank_of_isDigit (Decimal.isDigit_of_mem_digits h)

theorem splitOnP_valuesText (v : Int64) (vs : List Int64) :
    (valuesText (v :: vs)).splitOnP isBlank =
      (v :: vs).map fun w => Decimal.numeral w.toInt := by
  induction vs generalizing v with
  | nil =>
    rw [valuesText, show furtherText [] = [] from rfl, List.append_nil,
      List.splitOnP_eq_singleton fun c hc => isBlank_of_mem_numeral hc]
    rfl
  | cons w ws ih =>
    rw [valuesText, furtherText_cons,
      List.splitOnP_append_cons_of_forall_mem (fun c hc => isBlank_of_mem_numeral hc) ' ' rfl, ih w]
    rfl

/-- The tokens of a row's text are the numerals of its values. -/
theorem tokens_valuesText (values : List Int64) :
    tokens (valuesText values) = values.map fun v => Decimal.numeral v.toInt := by
  cases values with
  | nil => rfl
  | cons v vs =>
    rw [tokens, splitOnP_valuesText, List.filter_eq_self]
    intro token htoken
    obtain ⟨w, -, rfl⟩ := List.mem_map.1 htoken
    simpa using Decimal.numeral_ne_nil w.toInt

/-- A row's text stays on its line. -/
theorem lineFeed_notMem_valuesText (values : List Int64) : '\n' ∉ valuesText values := by
  have hnumeral : ∀ i, '\n' ∉ Decimal.numeral i := by
    intro i h
    have := isBlank_of_mem_numeral h
    revert this
    decide
  intro h
  cases values with
  | nil => simp [valuesText] at h
  | cons v vs =>
    rcases List.mem_append.1 h with h | h
    · exact hnumeral _ h
    · obtain ⟨w, -, hw⟩ := List.mem_flatMap.1 h
      rcases List.mem_cons.1 hw with h | h
      · revert h; decide
      · exact hnumeral _ h

theorem splitOn_textOf (rows : List (List Int64)) :
    (textOf rows).splitOn '\n' = rows.map valuesText ++ [[]] := by
  induction rows with
  | nil => rfl
  | cons row rows ih =>
    rw [textOf_cons, List.splitOn_append_cons_self_of_not_mem (lineFeed_notMem_valuesText row), ih]
    rfl

/-- The lines of the text are the texts of the rows. Nothing stands behind the last line feed, so
there is no further line. -/
theorem lines_textOf (rows : List (List Int64)) : lines (textOf rows) = rows.map valuesText := by
  simp [lines, splitOn_textOf]

theorem getLast?_textOf (rows : List (List Int64)) :
    (textOf rows).getLast? = if rows = [] then none else some '\n' := by
  rcases List.eq_nil_or_concat rows with rfl | ⟨rows, row, rfl⟩
  · rfl
  · simp [textOf]

/-! ## Reading what was written -/

/-- A row's text is read as the row. -/
theorem lineReads_valuesText (row : List Int64) : LineReads (valuesText row) row := by
  rw [LineReads, tokens_valuesText, List.forall₂_map_left_iff, List.forall₂_same]
  exact fun v _ => Decimal.int64?_numeral v

/-- **Reading undoes the encoding of rows**, whatever the rows are. -/
theorem read_encodeRows (rows : List (List Int64)) :
    Table.read (encodeRows rows) = .ok ⟨rows, !rows.isEmpty⟩ := by
  rw [encodeRows_eq_encode_textOf, Table.read, Utf8.decode_encode]
  show ofText (textOf rows) = _
  rw [ofText_eq_ok_iff]
  refine ⟨?_, ?_⟩
  · rw [lines_textOf, List.forall₂_map_left_iff, List.forall₂_same]
    exact fun row _ => lineReads_valuesText row
  · rw [getLast?_textOf]
    cases rows <;> simp

theorem count_lineFeed_textOf (rows : List (List Int64)) :
    (textOf rows).count '\n' = rows.length := by
  induction rows with
  | nil => rfl
  | cons row rows ih =>
    rw [textOf_cons, List.count_append, List.count_cons_self, ih,
      List.count_eq_zero.2 (lineFeed_notMem_valuesText row), List.length_cons, Nat.zero_add]

/-- The line feeds of an encoding are the ends of its rows. -/
theorem count_terminator_encodeRows (rows : List (List Int64)) :
    (encodeRows rows).count terminator = rows.length := by
  rw [encodeRows_eq_encode_textOf, ← count_lineFeed_textOf rows]
  exact asciiClass_lineFeed.countP_encode (textOf rows)

/-- **What was written is read back.** Rows of any values, in any number and of any length, that are
written one after the other into a medium that takes everything all succeed; the sink can be
flushed and holds a text that is read as exactly these rows, ended by a line end unless there is no
row. The tally has counted every octet, and the line feeds are as many as the rows. -/
theorem read_written {m : Medium} (hm : m.TakesAll) (rows : List (List Int64)) :
    let written := Transcript.writeEach { sink := { medium := m } } rows
    written.1.map (·.result) = rows.map (fun row => .ok row.length) ∧
      written.2.finish = .ok () ∧
      Table.read written.2.sink.octets = .ok ⟨rows, !rows.isEmpty⟩ ∧
      written.2.tally.octets = written.2.sink.octets.length ∧
      written.2.sink.octets.count terminator = rows.length := by
  intro written
  obtain ⟨hresults, hg⟩ := Transcript.writeEach_of_takesAll rows
    (t := { sink := { medium := m } }) hm
  have hoctets : written.2.sink.octets = encodeRows rows := hg.sink.octets
  have hflush : written.2.sink.medium.whenFlushed = none := by
    rw [hg.sink.medium]; exact hm.flushes
  refine ⟨hresults, ?_, ?_, ?_, ?_⟩
  · rw [Transcript.finish, Sink.flush, hflush]
  · rw [hoctets, read_encodeRows]
  · rw [hoctets, hg.tally]
    simp [Tally.addRows]
  · rw [hoctets, count_terminator_encodeRows]

/-- Both ends of the range, an empty row in front and one between, into chunks of three octets with
every second call interrupted. -/
theorem read_written_extremes :
    let m : Medium := { chunk := some 3, period := some ⟨2, Nat.le_refl 2⟩ }
    let rows : List (List Int64) := [[], [Int64.minValue, 0], [], [Int64.maxValue]]
    let written := Transcript.writeEach { sink := { medium := m } } rows
    m.TakesAll ∧ written.1.map (·.result) = rows.map (fun row => .ok row.length) ∧
      written.2.finish = .ok () ∧
      Table.read written.2.sink.octets = .ok ⟨rows, !rows.isEmpty⟩ ∧
      written.2.tally.octets = written.2.sink.octets.length ∧
      written.2.sink.octets.count terminator = rows.length := by
  intro m rows written
  have hm : m.TakesAll := ⟨rfl, by decide, rfl⟩
  exact ⟨hm, read_written hm rows⟩

end Table

end PartyInputs
