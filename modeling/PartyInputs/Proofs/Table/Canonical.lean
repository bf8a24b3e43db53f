import Mathlib.Data.Set.List
import PartyInputs.Proofs.Table.Grammar
import PartyInputs.Proofs.Table.RoundTrip
import PartyInputs.Proofs.Text.Canonical

/-!
# The files that writing gives back

The reader takes many files for the same rows. Only one of them is written: signs and leading zeros
that are not needed, blanks other than single spaces between two values and a missing line feed at
the end are read and lost. Here the files that survive being read and written again are described
without reading or writing them.

* `Table.CanonicalText`: **the grammar of canonical files**.
* `Table.canonicalText_iff`: they are the encodings of rows.
* `Table.rewritten_eq_iff`: a file is given back **iff it is canonical**, and nothing else is ever
  written.
-/

namespace PartyInputs

open Text

namespace Table

/-! ## The grammar -/

/-- A canonical line, without its line feed: canonical numerals with values in the range of 64-bit
integers and one space between two of them, or nothing at all. -/
def CanonicalLine (line : List UInt8) : Prop :=
  ∃ numerals : List (List UInt8), line = [separator].intercalate numerals ∧
    ∀ numeral ∈ numerals, ∃ i, Decimal.Canonical numeral i ∧ -2 ^ 63 ≤ i ∧ i ≤ 2 ^ 63 - 1

/-- A canonical file: canonical lines with a line feed behind each. -/
def CanonicalText (octets : List UInt8) : Prop :=
  ∃ lines : List (List UInt8), octets = lines.flatMap (· ++ [terminator]) ∧
    ∀ line ∈ lines, CanonicalLine line

/-! ## Encodings and the grammar -/

/-- Octets are written for a value iff they are a canonical numeral with its value in range. -/
theorem exists_encodeValue_eq_iff {octets : List UInt8} :
    (∃ v, encodeValue v = octets) ↔
      ∃ i, Decimal.Canonical octets i ∧ -2 ^ 63 ≤ i ∧ i ≤ 2 ^ 63 - 1 := by
  constructor
  · rintro ⟨v, rfl⟩
    exact ⟨v.toInt, Decimal.canonical_iff.2 rfl,
      Decimal.fitsInt64_iff.1 (Decimal.fitsInt64_toInt v)⟩
  · rintro ⟨i, hi, hrange⟩
    refine ⟨Int64.ofInt i, ?_⟩
    rw [encodeValue, Decimal.toInt_ofInt_of_fitsInt64 (Decimal.fitsInt64_iff.2 hrange)]
    exact (Decimal.canonical_iff.1 hi).symm

theorem encodeValues_eq_intercalate (values : List Int64) :
    encodeValues values = [separator].intercalate (values.map encodeValue) := by
  induction values with
  | nil => rfl
  | cons v vs ih =>
    cases vs with
    | nil => simp [encodeValues]
    | cons w ws =>
      rw [List.map_cons, List.map_cons, List.intercalate_cons_cons, ← List.map_cons, ← ih]
      simp [encodeValues]

/-- The canonical lines are those of rows. -/
theorem exists_encodeValues_eq_iff {line : List UInt8} :
    (∃ row, encodeValues row = line) ↔ CanonicalLine line := by
  simp only [encodeValues_eq_intercalate, CanonicalLine, ← exists_encodeValue_eq_iff]
  constructor
  · rintro ⟨row, rfl⟩
    refine ⟨row.map encodeValue, rfl, ?_⟩
    intro numeral hnumeral
    obtain ⟨v, -, hv⟩ := List.mem_map.1 hnumeral
    exact ⟨v, hv⟩
  · rintro ⟨numerals, rfl, hnumerals⟩
    obtain ⟨row, rfl⟩ : numerals ∈ Set.range (List.map encodeValue) := by
      rw [Set.range_list_map]
      exact hnumerals
    exact ⟨row, rfl⟩

/-- **The canonical files are the encodings of rows.** -/
theorem canonicalText_iff {octets : List UInt8} :
    CanonicalText octets ↔ ∃ rows, octets = encodeRows rows := by
  have hrows : ∀ rows : List (List Int64),
      encodeRows rows = (rows.map encodeValues).flatMap (· ++ [terminator]) := by
    intro rows
    rw [List.flatMap_map]
    rfl
  simp only [CanonicalText, ← exists_encodeValues_eq_iff]
  constructor
  · rintro ⟨lines, rfl, hlines⟩
    obtain ⟨rows, rfl⟩ : lines ∈ Set.range (List.map encodeValues) := by
      rw [Set.range_list_map]
      exact hlines
    exact ⟨rows, (hrows rows).symm⟩
  · rintro ⟨rows, rfl⟩
    refine ⟨rows.map encodeValues, hrows rows, ?_⟩
    intro line hline
    obtain ⟨row, -, hrow⟩ := List.mem_map.1 hline
    exact ⟨row, hrow⟩

/-! ## Reading and writing again -/

/-- The rows of a table that octets hold are encoded as these octets iff they are canonical. -/
theorem encodeRows_eq_iff_of_read {octets : List UInt8} {t : Table} (h : read octets = .ok t) :
    encodeRows t.rows = octets ↔ CanonicalText octets := by
  rw [canonicalText_iff]
  constructor
  · intro heq
    exact ⟨t.rows, heq.symm⟩
  · rintro ⟨rows, rfl⟩
    rw [read_encodeRows] at h
    cases h
    rfl

/-- **What survives being read and written again.** Octets that hold a table are given back by
writing its rows into a medium that takes everything iff they are canonical, and canonical octets
always hold a table. Nothing else is ever written: on a medium that takes everything no row fails,
and on whatever medium the sink holds a canonical file after rows of which none has failed. -/
theorem rewritten_eq_iff :
    (∀ (m : Medium) (octets : List UInt8) (t : Table), m.TakesAll → read octets = .ok t →
      ((Transcript.writeEach { sink := { medium := m } } t.rows).2.sink.octets = octets ↔
        CanonicalText octets)) ∧
    (∀ octets, CanonicalText octets → ∃ t, read octets = .ok t) ∧
    ∀ (m : Medium) (rows : List (List Int64)),
      let written := Transcript.writeEach { sink := { medium := m } } rows
      (m.TakesAll → ∀ outcome ∈ written.1, ∃ n, outcome.result = .ok n) ∧
        ((∀ outcome ∈ written.1, ∃ n, outcome.result = .ok n) →
          CanonicalText written.2.sink.octets) := by
  refine ⟨?_, ?_, ?_⟩
  · intro m octets t hm ht
    have hg := (Transcript.writeEach_of_takesAll t.rows (t := { sink := { medium := m } }) hm).2
    have hoctets := hg.sink.octets
    rw [show Sink.octets { medium := m } = [] from rfl, List.nil_append] at hoctets
    rw [hoctets]
    exact encodeRows_eq_iff_of_read ht
  · intro octets h
    obtain ⟨rows, rfl⟩ := canonicalText_iff.1 h
    exact ⟨_, read_encodeRows rows⟩
  · intro m rows written
    refine ⟨?_, ?_⟩
    · intro hm outcome ho
      have hresults := (Transcript.writeEach_of_takesAll rows
        (t := { sink := { medium := m } }) hm).1
      have hmem : outcome.result ∈ written.1.map (·.result) := List.mem_map_of_mem ho
      rw [hresults] at hmem
      obtain ⟨row, -, hrow⟩ := List.mem_map.1 hmem
      exact ⟨row.length, hrow.symm⟩
    · intro hall
      have hg := Transcript.gains_of_writeEach rows hall
      refine canonicalText_iff.2 ⟨rows, ?_⟩
      exact hg.sink.octets

/-- A plus sign, a sign of zero, two spaces, and a carriage return in front of the line feed are all
lost: what is written for the same row is canonical and not what was read. -/
theorem rewritten_eq_iff_padded :
    let m : Medium := { chunk := some 3, period := some ⟨2, Nat.le_refl 2⟩ }
    let octets := Utf8.ofString "+7  -0\r\n"
    let t : Table := ⟨[[7, 0]], true⟩
    let written := Transcript.writeEach { sink := { medium := m } } t.rows
    m.TakesAll ∧ read octets = .ok t ∧ written.2.sink.octets = Utf8.ofString "7 0\n" ∧
      ¬ CanonicalText octets ∧ CanonicalText written.2.sink.octets := by
  intro m octets t written
  have hm : m.TakesAll := ⟨rfl, by decide, rfl⟩
  have hread : read octets = .ok t := read_eq_ok_iff_exists_text.2 ⟨_, rfl, rfl⟩
  have hwritten : written.2.sink.octets = Utf8.ofString "7 0\n" :=
    (Transcript.writeEach_of_takesAll t.rows (t := { sink := { medium := m } }) hm).2.sink.octets
  obtain ⟨hiff, -, hall⟩ := rewritten_eq_iff
  have hcanonical := (hall m t.rows).2 ((hall m t.rows).1 hm)
  refine ⟨hm, hread, hwritten, ?_, hcanonical⟩
  intro h
  have hsame := (hiff m octets t hm hread).2 h
  rw [hwritten] at hsame
  exact absurd hsame (by decide)

end Table

end PartyInputs
