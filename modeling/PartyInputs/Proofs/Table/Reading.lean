import PartyInputs.Proofs.Fallible
import PartyInputs.Table.Reading

/-!
# When a text is read as a table

Reading goes through lines and tokens and stops at the first fault, so it succeeds exactly if every
token of every line is a numeral. What is read is then determined token by token, and the line
numbers, which only faults mention, play no part.

* `Table.readLine_eq_ok_iff`, `Table.readLines_eq_ok_iff`: the rows of a line and of lines.
* `Table.ofText_eq_ok_iff`: **the tables that a text holds**, as a relation.
* `Table.readLine_eq_error_iff`, `Table.ofText_eq_error_iff`: **the fault that is reported** is that
  of the first token that is no numeral on the first line that has one.
-/

namespace PartyInputs

open Text

namespace Table

theorem readToken_eq_ok_iff {line : Nat} {token : List Char} {v : Int64} :
    readToken line token = .ok v ↔ Decimal.int64? token = some v := by
  unfold readToken
  split
  · rename_i w hw
    simp [hw]
  · rename_i hw
    simp [hw]

/-- The rows that a line can be read as: its tokens are the numerals of the values. -/
def LineReads (line : List Char) (row : List Int64) : Prop :=
  List.Forall₂ (fun token v => Decimal.int64? token = some v) (tokens line) row

theorem readLine_eq_ok_iff {line : Nat} {text : List Char} {row : List Int64} :
    readLine line text = .ok row ↔ LineReads text row := by
  rw [readLine, mapM_eq_ok_iff, LineReads]
  simp only [readToken_eq_ok_iff]

/-- Lines are read as rows one by one, whatever the number of the first line is. -/
theorem readLines_eq_ok_iff {texts : List (List Char)} {rows : List (List Int64)} :
    ∀ first : Nat, readLines first texts = .ok rows ↔ List.Forall₂ LineReads texts rows := by
  intro first
  rw [readLines, mapM_eq_ok_iff]
  simp only [readLine_eq_ok_iff]
  induction texts generalizing first rows with
  | nil => simp only [List.zipIdx_nil, List.forall₂_nil_left_iff]
  | cons text texts ih =>
    rw [List.zipIdx_cons, List.forall₂_cons_left_iff, List.forall₂_cons_left_iff]
    simp only [ih]

/-- **The table that a text holds**: one row for each line, each made of the values of the tokens of
its line, and the mark of a line end at the end of the text. -/
theorem ofText_eq_ok_iff {text : List Char} {t : Table} :
    ofText text = .ok t ↔
      List.Forall₂ LineReads (lines text) t.rows ∧
        t.terminated = decide (text.getLast? = some '\n') := by
  rw [ofText, ← readLines_eq_ok_iff 1]
  obtain ⟨rows, terminated⟩ := t
  rcases readLines 1 (lines text) with fault | rows'
  · simp [Except.map]
  · simp [Except.map, eq_comm]

/-! ## Faults -/

theorem readToken_eq_error_iff {line : Nat} {token : List Char} {fault : ReadFault} :
    readToken line token = .error fault ↔
      Decimal.int64? token = none ∧ fault = .notInteger line (String.ofList token) := by
  unfold readToken
  split
  · rename_i v hv
    simp [hv]
  · rename_i hv
    simp [hv, eq_comm]

theorem readLine_eq_error_iff {line : Nat} {text : List Char} {fault : ReadFault} :
    readLine line text = .error fault ↔
      ∃ front token back, tokens text = front ++ token :: back ∧
        (∀ t ∈ front, ∃ v, Decimal.int64? t = some v) ∧
        Decimal.int64? token = none ∧ fault = .notInteger line (String.ofList token) := by
  rw [readLine, mapM_eq_error_iff]
  simp only [readToken_eq_ok_iff, readToken_eq_error_iff]

/-- Lines fail at the first one that fails, and its number counts the ones in front of it. -/
theorem readLines_eq_error_iff {texts : List (List Char)} {fault : ReadFault} :
    ∀ first : Nat, readLines first texts = .error fault ↔
      ∃ front text back, texts = front ++ text :: back ∧
        (∀ line ∈ front, ∃ row, LineReads line row) ∧
        readLine (first + front.length) text = .error fault := by
  induction texts with
  | nil =>
    intro first
    constructor
    · intro h; cases h
    · rintro ⟨front, text, back, h, -⟩
      exact absurd h (by simp)
  | cons text texts ih =>
    intro first
    have hcons : readLines first (text :: texts) = .error fault ↔
        readLine first text = .error fault ∨
          (∃ row, LineReads text row) ∧ readLines (first + 1) texts = .error fault := by
      rw [readLines, List.zipIdx_cons, mapM_cons_eq_error_iff]
      simp only [readLine_eq_ok_iff]
      rfl
    rw [hcons, ih]
    constructor
    · rintro (h | ⟨hrow, front, line, back, rfl, hfront, hline⟩)
      · exact ⟨[], text, texts, rfl, by simp, h⟩
      · refine ⟨text :: front, line, back, rfl, List.forall_mem_cons.2 ⟨hrow, hfront⟩, ?_⟩
        rw [List.length_cons, Nat.add_comm front.length 1, ← Nat.add_assoc]
        exact hline
    · rintro ⟨front, line, back, heq, hfront, hline⟩
      rcases front with _ | ⟨w, front⟩
      · cases heq
        exact .inl hline
      · cases heq
        obtain ⟨hrow, hrest⟩ := List.forall_mem_cons.1 hfront
        rw [List.length_cons, Nat.add_comm front.length 1, ← Nat.add_assoc] at hline
        exact .inr ⟨hrow, front, line, back, rfl, hrest, hline⟩

theorem ofText_eq_error_iff {text : List Char} {fault : ReadFault} :
    ofText text = .error fault ↔
      ∃ front line back, lines text = front ++ line :: back ∧
        (∀ l ∈ front, ∃ row, LineReads l row) ∧
        readLine (1 + front.length) line = .error fault := by
  rw [ofText, map_eq_error_iff, readLines_eq_error_iff]

end Table

end PartyInputs
