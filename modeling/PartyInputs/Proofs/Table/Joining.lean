import PartyInputs.Proofs.Table.Grammar

/-!
# Files that follow each other

Octets that end with a line end, or are none, can be read apart from what follows them: the lines of
both together are the lines of the first and then those of the second. So the rows of a file that
goes on are those of its two parts, and a fault of the second part is met again, further down by
the lines and the octets in front of it.

* `Table.lines_append`: **no line goes across a line end**.
* `Table.readLines_append`, `Table.readLines_add`: lines one after the other, and the same lines
  under later numbers.
* `Table.ofText_append`: a text that goes on behind a line end.
* `Table.read_append`: **a file that goes on behind a line end**.
-/

namespace PartyInputs

open Text

/-- The fault of octets, as one of longer octets: this many octets and lines stand in front. -/
def ReadFault.behind (octets lines : Nat) : ReadFault → ReadFault
  | .notUtf8 offset => .notUtf8 (offset + octets)
  | .notInteger line token => .notInteger (line + lines) token

namespace Table

variable {s t : List Char}

/-! ## Lines -/

/-- Cutting into lines drops the last piece if it is empty, and this is all that it looks at. -/
theorem lines_eq_of_splitOn {pieces : List (List Char)}
    (h : s.splitOn '\n' = pieces ++ t.splitOn '\n') : lines s = pieces ++ lines t := by
  have hne : t.splitOn '\n' ≠ [] := by
    rw [List.splitOn_eq_splitOnP]
    exact List.splitOnP_ne_nil _ _
  unfold lines
  simp only [h, List.getLast?_append_of_ne_nil _ hne]
  split
  · exact List.dropLast_append_of_ne_nil hne
  · rfl

/-- **No line goes across a line end.** -/
theorem lines_append (hs : s = [] ∨ s.getLast? = some '\n') (t : List Char) :
    lines (s ++ t) = lines s ++ lines t := by
  rcases hs with rfl | hs
  · rfl
  · obtain ⟨front, rfl⟩ := List.getLast?_eq_some_iff.1 hs
    have hfront : lines (front ++ ['\n']) = front.splitOn '\n' := by
      have hnil : lines (front ++ ['\n']) = front.splitOn '\n' ++ lines [] :=
        lines_eq_of_splitOn (List.splitOn_append_cons_self ..)
      rw [hnil]
      exact List.append_nil _
    rw [hfront, List.append_assoc]
    exact lines_eq_of_splitOn (List.splitOn_append_cons_self ..)

/-! ## Rows -/

/-- Lines one after the other are read one after the other. -/
theorem readLines_append {texts : List (List Char)} {rows : List (List Int64)} {first : Nat}
    (h : readLines first texts = .ok rows) (more : List (List Char)) :
    readLines first (texts ++ more) =
      (readLines (first + texts.length) more).map (rows ++ ·) := by
  unfold readLines at h ⊢
  rw [List.zipIdx_append, List.mapM_append, h]
  rfl

theorem readToken_add (line k octets : Nat) (token : List Char) :
    readToken (line + k) token = (readToken line token).mapError (ReadFault.behind octets k) := by
  unfold readToken
  split
  · rfl
  · rfl

theorem readLine_add (line k octets : Nat) (text : List Char) :
    readLine (line + k) text = (readLine line text).mapError (ReadFault.behind octets k) :=
  mapM_eq_mapError fun token _ => readToken_add line k octets token

/-- **Under later numbers** the same lines are read as the same rows, and a fault is on a line that
is as much later. -/
theorem readLines_add (first k octets : Nat) (texts : List (List Char)) :
    readLines (first + k) texts =
      (readLines first texts).mapError (ReadFault.behind octets k) := by
  unfold readLines
  rw [@List.zipIdx_eq_map_add _ texts (first + k), @List.zipIdx_eq_map_add _ texts first,
    List.mapM_map, List.mapM_map]
  refine mapM_eq_mapError fun entry _ => ?_
  obtain ⟨text, line⟩ := entry
  show readLine (first + k + line) text = _
  rw [Nat.add_right_comm]
  exact readLine_add (first + line) k octets text

/-- **A text that goes on behind a line end.** Octets play no part in its faults, so any number of
them may be said to stand in front. -/
theorem ofText_append {ts : Table} (hs : s = [] ∨ s.getLast? = some '\n') (h : ofText s = .ok ts)
    (octets : Nat) (t : List Char) :
    ofText (s ++ t) =
      match ofText t with
      | .ok tt => .ok ⟨ts.rows ++ tt.rows, if t = [] then ts.terminated else tt.terminated⟩
      | .error fault => .error (fault.behind octets ts.rows.length) := by
  obtain ⟨hrows, hterminated⟩ := ofText_eq_ok_iff.1 h
  have hmark : decide ((s ++ t).getLast? = some '\n') =
      if t = [] then ts.terminated else decide (t.getLast? = some '\n') := by
    by_cases ht : t = []
    · rw [if_pos ht, ht, List.append_nil, hterminated]
    · rw [if_neg ht, List.getLast?_append_of_ne_nil _ ht]
  have hlines : readLines 1 (lines (s ++ t)) =
      ((readLines 1 (lines t)).mapError (ReadFault.behind octets ts.rows.length)).map
        (ts.rows ++ ·) := by
    rw [lines_append hs, readLines_append ((readLines_eq_ok_iff 1).2 hrows), hrows.length_eq,
      readLines_add 1 ts.rows.length octets]
  unfold ofText
  rw [hlines, hmark]
  rcases readLines 1 (lines t) with fault | rows
  · rfl
  · rfl

/-! ## Octets -/

/-- **A file that goes on behind a line end** holds the rows of both parts, and whether its last
line is ended is said by the second part unless that is nothing. A fault of the second part is the
fault of the whole: a token on a line that is later by the rows of the first part, or octets that
are no text at an offset that is later by its octets. -/
theorem read_append {a : List UInt8} {ta : Table}
    (hend : a = [] ∨ a.getLast? = some terminator) (ha : read a = .ok ta) (b : List UInt8) :
    read (a ++ b) =
      match read b with
      | .ok tb => .ok ⟨ta.rows ++ tb.rows, if b = [] then ta.terminated else tb.terminated⟩
      | .error (.notInteger line token) => .error (.notInteger (line + ta.rows.length) token)
      | .error (.notUtf8 offset) => .error (.notUtf8 (offset + a.length)) := by
  obtain ⟨s, rfl, hs⟩ := read_eq_ok_iff_exists_text.1 ha
  rw [Utf8.encode_eq_nil_iff, getLast?_encode_eq_terminator_iff] at hend
  unfold read
  rw [Utf8.decode_encode_append]
  rcases hb : Utf8.decode b with offset | t
  · show Except.error (ReadFault.notUtf8 _) = Except.error (ReadFault.notUtf8 _)
    rw [Nat.add_comm]
  · obtain rfl := Utf8.eq_encode_of_decode hb
    simp only [ofText_append hend hs (Utf8.encode s).length t, Utf8.encode_eq_nil_iff]
    rcases ofText t with fault | tt
    · cases fault with
      | notUtf8 offset => rfl
      | notInteger line token => rfl
    · rfl

/-- Behind two lines, the second of them blank: nothing, a blank line and one that is not ended, a
token on the second line, and an octet that is no text. -/
theorem read_append_blank :
    let a := Utf8.ofString "1 2\n\n"
    let b := Utf8.ofString "\n3"
    let c := Utf8.ofString "4\n x"
    read (a ++ []) = .ok ⟨[[1, 2], []], true⟩ ∧
      read (a ++ b) = .ok ⟨[[1, 2], [], [], [3]], false⟩ ∧
      read (a ++ c) = .error (.notInteger 4 "x") ∧
      read (a ++ (b ++ [0xff])) = .error (.notUtf8 7) := by
  intro a b c
  have hend : a = [] ∨ a.getLast? = some terminator := by decide
  have ha : read a = .ok ⟨[[1, 2], []], true⟩ := by decide +kernel
  have hnil : read [] = .ok ⟨[], false⟩ := by decide +kernel
  have hb : read b = .ok ⟨[[], [3]], false⟩ := by decide +kernel
  have hc : read c = .error (.notInteger 2 "x") := by decide +kernel
  have hcut : read (b ++ [0xff]) = .error (.notUtf8 2) := by decide +kernel
  rw [read_append hend ha, read_append hend ha, read_append hend ha, read_append hend ha, hnil, hb,
    hc, hcut]
  exact ⟨rfl, rfl, rfl, rfl⟩

end Table

end PartyInputs
