import PartyInputs.Proofs.Table.Reading
import PartyInputs.Proofs.Table.Runs
import PartyInputs.Proofs.Text.Numeral

/-!
# The files that are tables

Whether octets are read as a table, and which, said without decoding, lines or tokens: it depends on
whether they are UTF-8, on their maximal runs of octets other than blanks, and on where their line
feeds stand.

* `Table.octetLines_encode`, `Table.octetRuns_encode`: lines and tokens can be cut before decoding.
* `Table.read_eq_ok_iff`: the tables that octets hold, line by line.
* `Table.exists_read_forall_values_iff`: the same with a property that all values have.
* `Table.read_grammar`: **the grammar of files** and what a file of the grammar says.
-/

namespace PartyInputs

open Text

namespace Text.Utf8

/-- Octets are UTF-8 iff they are the encoding of a text. -/
theorem isValidUTF8_toByteArray_iff {octets : List UInt8} :
    octets.toByteArray.IsValidUTF8 ↔ ∃ text, octets = encode text := by
  constructor
  · rintro ⟨text, h⟩
    exact ⟨text, List.toByteArray_inj.1 h⟩
  · rintro ⟨text, rfl⟩
    exact .intro text rfl

end Text.Utf8

namespace Table

/-! ## Cutting before decoding -/

theorem octetPieces_encode (text : List Char) :
    octetPieces (Utf8.encode text) = (text.splitOn '\n').map Utf8.encode := by
  rw [octetPieces, asciiClass_lineFeed.splitOnP_encode, List.splitOn_eq_splitOnP]

/-- The lines of octets are the encoded lines of the text. -/
theorem octetLines_encode (text : List Char) :
    octetLines (Utf8.encode text) = (lines text).map Utf8.encode := by
  have hlast : ((text.splitOn '\n').map Utf8.encode).getLast? = some [] ↔
      (text.splitOn '\n').getLast? = some [] := by
    rw [List.getLast?_map, Option.map_eq_some_iff]
    constructor
    · rintro ⟨piece, hpiece, hnil⟩
      rw [hpiece, Utf8.encode_eq_nil_iff.1 hnil]
    · intro h
      exact ⟨[], h, rfl⟩
  unfold octetLines lines
  rw [octetPieces_encode]
  by_cases h : (text.splitOn '\n').getLast? = some []
  · rw [if_pos h, if_pos (hlast.2 h), List.map_dropLast]
  · rw [if_neg h, if_neg (mt hlast.1 h)]

/-- The runs of octets are the encoded tokens of the text. -/
theorem octetRuns_encode (line : List Char) :
    octetRuns (Utf8.encode line) = (tokens line).map Utf8.encode := by
  rw [octetRuns, asciiClass_isBlank.splitOnP_encode, tokens, List.filter_map]
  congr 2
  funext piece
  simp only [Function.comp_apply, ne_eq, Utf8.encode_eq_nil_iff]

/-- A line feed at the end is seen in the octets. -/
theorem getLast?_encode_eq_terminator_iff (text : List Char) :
    (Utf8.encode text).getLast? = some terminator ↔ text.getLast? = some '\n' := by
  have h := asciiClass_lineFeed.any_getLast?_encode text
  rw [Bool.eq_iff_iff] at h
  simpa [Option.any_eq_true] using h

/-! ## Lines of octets as rows -/

/-- The rows that the octets of a line can be read as: its runs are numerals of the values. -/
def OctetsRead (line : List UInt8) (row : List Int64) : Prop :=
  List.Forall₂ (fun run v => Decimal.Denotes run v.toInt) (octetRuns line) row

theorem octetsRead_encode_iff (line : List Char) (row : List Int64) :
    OctetsRead (Utf8.encode line) row ↔ LineReads line row := by
  unfold OctetsRead LineReads
  rw [octetRuns_encode, List.forall₂_map_left_iff]
  simp only [Decimal.int64?_eq_some_iff]

/-- Octets are read as a table iff they encode a text that holds it. -/
theorem read_eq_ok_iff_exists_text {octets : List UInt8} {t : Table} :
    read octets = .ok t ↔ ∃ text, octets = Utf8.encode text ∧ ofText text = .ok t := by
  unfold read
  constructor
  · intro h
    rcases hd : Utf8.decode octets with offset | text
    · rw [hd] at h
      cases h
    · rw [hd] at h
      exact ⟨text, Utf8.eq_encode_of_decode hd, h⟩
  · rintro ⟨text, rfl, h⟩
    rw [Utf8.decode_encode]
    exact h

/-- The tables that octets hold, with nothing decoded. -/
theorem read_eq_ok_iff {octets : List UInt8} {t : Table} :
    read octets = .ok t ↔
      octets.toByteArray.IsValidUTF8 ∧ List.Forall₂ OctetsRead (octetLines octets) t.rows ∧
        t.terminated = decide (octets.getLast? = some terminator) := by
  rw [read_eq_ok_iff_exists_text, Utf8.isValidUTF8_toByteArray_iff]
  have htext : ∀ text, ofText text = .ok t ↔
      List.Forall₂ OctetsRead (octetLines (Utf8.encode text)) t.rows ∧
        t.terminated = decide ((Utf8.encode text).getLast? = some terminator) := by
    intro text
    rw [ofText_eq_ok_iff, octetLines_encode, List.forall₂_map_left_iff]
    simp only [octetsRead_encode_iff, getLast?_encode_eq_terminator_iff]
  constructor
  · rintro ⟨text, rfl, h⟩
    exact ⟨⟨text, rfl⟩, (htext text).1 h⟩
  · rintro ⟨⟨text, rfl⟩, h⟩
    exact ⟨text, rfl, (htext text).2 h⟩

/-! ## The grammar -/

/-- A line can be read iff each of its runs is a numeral with its value in range. -/
theorem exists_octetsRead_iff {line : List UInt8} :
    (∃ row, OctetsRead line row) ↔
      ∀ run ∈ octetRuns line, ∃ i, Decimal.Denotes run i ∧ -2 ^ 63 ≤ i ∧ i ≤ 2 ^ 63 - 1 := by
  unfold OctetsRead
  rw [exists_forall₂_iff]
  simp only [Decimal.exists_denotes_toInt_iff]

/-- Octets are a table iff they are UTF-8 and every maximal run is a numeral with its value in
range. -/
theorem exists_read_eq_ok_iff (octets : List UInt8) :
    (∃ t, read octets = .ok t) ↔
      octets.toByteArray.IsValidUTF8 ∧ ∀ run, MaximalRun octets run →
        ∃ i, Decimal.Denotes run i ∧ -2 ^ 63 ≤ i ∧ i ≤ 2 ^ 63 - 1 := by
  -- every line can be read iff every run of every line is a numeral, and these are all runs
  have hlines : (∃ rows, List.Forall₂ OctetsRead (octetLines octets) rows) ↔
      ∀ run, MaximalRun octets run →
        ∃ i, Decimal.Denotes run i ∧ -2 ^ 63 ≤ i ∧ i ≤ 2 ^ 63 - 1 := by
    rw [exists_forall₂_iff]
    simp only [exists_octetsRead_iff, ← (runs_octetRuns octets).mem_iff,
      ← flatMap_octetRuns_octetLines octets, List.mem_flatMap]
    constructor
    · rintro h run ⟨line, hline, hrun⟩
      exact h line hline run hrun
    · intro h line hline run hrun
      exact h run ⟨line, hline, hrun⟩
  rw [← hlines]
  constructor
  · rintro ⟨t, ht⟩
    obtain ⟨hvalid, hrows, -⟩ := read_eq_ok_iff.1 ht
    exact ⟨hvalid, t.rows, hrows⟩
  · rintro ⟨hvalid, rows, hrows⟩
    exact ⟨⟨rows, decide (octets.getLast? = some terminator)⟩,
      read_eq_ok_iff.2 ⟨hvalid, hrows, rfl⟩⟩

/-- Row `i` holds the values of the runs of line `i`, in order. -/
theorem exists_runs_of_read {octets : List UInt8} {t : Table} (ht : read octets = .ok t) {i : Nat}
    {row : List Int64} (hrow : t.rows[i]? = some row) :
    ∃ line runs, IsLine octets i line ∧ Runs line runs ∧
      List.Forall₂ (fun run v => Decimal.Denotes run v.toInt) runs row := by
  obtain ⟨-, hrows, -⟩ := read_eq_ok_iff.1 ht
  obtain ⟨hlt, hget⟩ := List.getElem?_eq_some_iff.1 hrow
  have hline : i < (octetLines octets).length := by
    rw [hrows.length_eq]
    exact hlt
  have hread := hrows.get hline hlt
  rw [List.get_eq_getElem, List.get_eq_getElem] at hread
  rw [hget] at hread
  exact ⟨(octetLines octets)[i], octetRuns (octetLines octets)[i],
    isLine_octetLines (List.getElem?_eq_getElem hline), runs_octetRuns _, hread⟩

/-! ## Values -/

/-- The values of a table are those of the maximal runs, in order. -/
theorem forall₂_octetRuns_values {octets : List UInt8} {t : Table} (h : read octets = .ok t) :
    List.Forall₂ (fun run v => Decimal.Denotes run v.toInt) (octetRuns octets) t.values := by
  obtain ⟨-, hrows, -⟩ := read_eq_ok_iff.1 h
  rw [← flatMap_octetRuns_octetLines octets, List.flatMap_def]
  apply List.rel_flatten
  rw [List.forall₂_map_left_iff]
  exact hrows

/-- What is said of values is said of the integers that their numerals stand for. -/
theorem forall_mem_iff_of_denotes {runs : List (List UInt8)} {values : List Int64} {P : Int → Prop}
    (h : List.Forall₂ (fun run v => Decimal.Denotes run v.toInt) runs values) :
    (∀ v ∈ values, P v.toInt) ↔ ∀ run ∈ runs, ∃ i, Decimal.Denotes run i ∧ P i := by
  induction h with
  | nil => simp
  | @cons run v runs values hrun _ ih =>
    have hhead : (∃ i, Decimal.Denotes run i ∧ P i) ↔ P v.toInt := by
      constructor
      · rintro ⟨i, hi, hP⟩
        rw [← hi.unique hrun]
        exact hP
      · intro hP
        exact ⟨v.toInt, hrun, hP⟩
    rw [List.forall_mem_cons, List.forall_mem_cons, hhead, ih]

/-- What is said of all values of a table is said of its maximal runs. -/
theorem forall_values_iff {octets : List UInt8} {t : Table} (h : read octets = .ok t)
    {P : Int → Prop} :
    (∀ v ∈ t.values, P v.toInt) ↔
      ∀ run, MaximalRun octets run → ∃ i, Decimal.Denotes run i ∧ P i := by
  simp only [← (runs_octetRuns octets).mem_iff]
  exact forall_mem_iff_of_denotes (forall₂_octetRuns_values h)

/-- Octets are a table all of whose values have a property iff they are UTF-8 and every maximal run
is a numeral whose value is in range and has the property. -/
theorem exists_read_forall_values_iff {octets : List UInt8} {P : Int → Prop} :
    (∃ t, read octets = .ok t ∧ ∀ v ∈ t.values, P v.toInt) ↔
      octets.toByteArray.IsValidUTF8 ∧ ∀ run, MaximalRun octets run →
        ∃ i, Decimal.Denotes run i ∧ -2 ^ 63 ≤ i ∧ i ≤ 2 ^ 63 - 1 ∧ P i := by
  constructor
  · rintro ⟨t, ht, hP⟩
    have hrange : ∀ v ∈ t.values, -2 ^ 63 ≤ v.toInt ∧ v.toInt ≤ 2 ^ 63 - 1 ∧ P v.toInt := by
      intro v hv
      obtain ⟨hlo, hhi⟩ := Decimal.fitsInt64_iff.1 (Decimal.fitsInt64_toInt v)
      exact ⟨hlo, hhi, hP v hv⟩
    exact ⟨(read_eq_ok_iff.1 ht).1, (forall_values_iff ht).1 hrange⟩
  · rintro ⟨hvalid, hruns⟩
    have hnumerals : ∀ run, MaximalRun octets run →
        ∃ i, Decimal.Denotes run i ∧ -2 ^ 63 ≤ i ∧ i ≤ 2 ^ 63 - 1 := by
      intro run hrun
      obtain ⟨i, hi, hlo, hhi, -⟩ := hruns run hrun
      exact ⟨i, hi, hlo, hhi⟩
    obtain ⟨t, ht⟩ := (exists_read_eq_ok_iff octets).2 ⟨hvalid, hnumerals⟩
    refine ⟨t, ht, (forall_values_iff ht).2 ?_⟩
    intro run hrun
    obtain ⟨i, hi, -, -, hP⟩ := hruns run hrun
    exact ⟨i, hi, hP⟩

/-! ## Files and what they say -/

/-- **The grammar of files.** Octets are a table iff they are UTF-8 and each maximal run of octets
other than blanks is a numeral with its value in the range of 64-bit integers. The table then has a
row for every line feed and one more for octets behind the last of them; row `i` holds the values
of the runs between the line feeds number `i` and `i + 1`; and the mark is set iff a line feed comes
last. -/
theorem read_grammar (octets : List UInt8) :
    ((∃ t, read octets = .ok t) ↔
      octets.toByteArray.IsValidUTF8 ∧ ∀ run, MaximalRun octets run →
        ∃ i, Decimal.Denotes run i ∧ -2 ^ 63 ≤ i ∧ i ≤ 2 ^ 63 - 1) ∧
    ∀ t, read octets = .ok t →
      t.rows.length = octets.count terminator +
          (if octets ≠ [] ∧ octets.getLast? ≠ some terminator then 1 else 0) ∧
      (∀ i row, t.rows[i]? = some row → ∃ line runs, IsLine octets i line ∧ Runs line runs ∧
        List.Forall₂ (fun run v => Decimal.Denotes run v.toInt) runs row) ∧
      (t.terminated = true ↔ octets.getLast? = some terminator) := by
  refine ⟨exists_read_eq_ok_iff octets, ?_⟩
  intro t ht
  obtain ⟨-, hrows, hmark⟩ := read_eq_ok_iff.1 ht
  refine ⟨?_, ?_, ?_⟩
  · rw [← hrows.length_eq, length_octetLines]
  · intro i row hrow
    exact exists_runs_of_read ht hrow
  · rw [hmark, decide_eq_true_iff]

/-- A sign with leading zeros, the lower end of the range in front of a carriage return, a blank
line, and a last line without a line feed: three rows, no mark. -/
theorem read_grammar_unterminated :
    let octets := Utf8.ofString "+007 -9223372036854775808\r\n\n1"
    let t : Table := ⟨[[7, Int64.minValue], [], [1]], false⟩
    read octets = .ok t ∧
      (∀ run, MaximalRun octets run →
        ∃ i, Decimal.Denotes run i ∧ -2 ^ 63 ≤ i ∧ i ≤ 2 ^ 63 - 1) ∧
      t.rows.length = octets.count terminator +
        (if octets ≠ [] ∧ octets.getLast? ≠ some terminator then 1 else 0) ∧
      (∃ line runs, IsLine octets 0 line ∧ Runs line runs ∧
        List.Forall₂ (fun run v => Decimal.Denotes run v.toInt) runs [7, Int64.minValue]) ∧
      (t.terminated = true ↔ octets.getLast? = some terminator) := by
  intro octets t
  have hread : read octets = .ok t := read_eq_ok_iff_exists_text.2 ⟨_, rfl, rfl⟩
  obtain ⟨hiff, hall⟩ := read_grammar octets
  obtain ⟨hlength, hrows, hmark⟩ := hall t hread
  exact ⟨hread, (hiff.1 ⟨t, hread⟩).2, hlength, hrows 0 _ rfl, hmark⟩

end Table

end PartyInputs
