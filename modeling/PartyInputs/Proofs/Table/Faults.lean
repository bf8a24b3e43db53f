import PartyInputs.Proofs.Table.Grammar
import PartyInputs.Proofs.Table.Places

/-!
# Which fault a file has

Octets that are no table have a fault, and it can be pointed at without decoding anything. Whether
they are UTF-8 comes first: if they are not, no token counts, not even one in front of the octets
that cannot be read. If they are, the fault is the first maximal run that is not a numeral in range,
and its line is told by the line feeds in front of it, those that end blank lines included.

* `Utf8.LongestReadable`, `Utf8.decode_eq_error_iff`: **where decoding stops**.
* `Table.FirstFaulty`: the first run that is no 64-bit integer.
* `Table.exists_firstFaulty_of_ofText`: the token that reading a text reports is that run.
* `Table.read_eq_error_iff`: **the fault that is reported**.
-/

namespace PartyInputs

open Text

namespace Text.Utf8

/-! ## Where decoding stops -/

/-- `front` are octets in front that are UTF-8, and none that go on further are. -/
structure LongestReadable (octets front : List UInt8) : Prop where
  isPrefix : front <+: octets
  valid : front.toByteArray.IsValidUTF8
  longest : ∀ longer, longer <+: octets → longer.toByteArray.IsValidUTF8 →
    longer.length ≤ front.length

variable {octets front : List UInt8}

theorem LongestReadable.length_unique {front' : List UInt8} (h : LongestReadable octets front)
    (h' : LongestReadable octets front') : front.length = front'.length :=
  Nat.le_antisymm (h'.longest front h.isPrefix h.valid) (h.longest front' h'.isPrefix h'.valid)

/-- Octets behind an encoded text are themselves an encoded text if all together are. -/
theorem exists_eq_encode_of_append {s t : List Char} {more : List UInt8}
    (h : encode s ++ more = encode t) : ∃ u, more = encode u := by
  have hdecode := decode_encode_append s more
  rw [h, decode_encode] at hdecode
  rcases hmore : decode more with offset | u
  · rw [hmore] at hdecode
    cases hdecode
  · exact ⟨u, eq_encode_of_decode hmore⟩

/-- No more is UTF-8 than what stands in front of octets with no character at their head. -/
theorem longestReadable_of_head?_eq_none {rest : List UInt8} (s : List Char)
    (h : head? rest = none) : LongestReadable (encode s ++ rest) (encode s) := by
  refine ⟨List.prefix_append _ _, isValidUTF8_toByteArray_iff.2 ⟨s, rfl⟩, ?_⟩
  intro longer hlonger hvalid
  rcases List.prefix_or_prefix_of_prefix hlonger (List.prefix_append _ _) with hle | hle
  · exact hle.length_le
  · obtain ⟨more, rfl⟩ := hle
    obtain ⟨t, ht⟩ := isValidUTF8_toByteArray_iff.1 hvalid
    obtain ⟨u, rfl⟩ := exists_eq_encode_of_append ht
    rcases u with _ | ⟨c, u⟩
    · rw [encode_nil, List.append_nil]
    · -- then a character stands at the head of what follows
      obtain ⟨tail, rfl⟩ := (List.prefix_append_right_inj _).1 hlonger
      rw [encode_cons, List.append_assoc, head?_encodeChar_append] at h
      cases h

/-- **Decoding stops** behind the longest octets in front that are UTF-8. -/
theorem decode_eq_error_iff {offset : Nat} :
    decode octets = .error offset ↔
      ¬ octets.toByteArray.IsValidUTF8 ∧
        ∃ front, LongestReadable octets front ∧ offset = front.length := by
  obtain ⟨s, rest, rfl, ⟨rfl, hdecode⟩ | ⟨-, hhead, hdecode⟩⟩ := decodeFrom_split octets 0 []
  · rw [decode, hdecode]
    constructor
    · intro h; cases h
    · rintro ⟨hvalid, -⟩
      rw [List.append_nil] at hvalid
      exact absurd (isValidUTF8_toByteArray_iff.2 ⟨s, rfl⟩) hvalid
  · have hlongest := longestReadable_of_head?_eq_none s hhead
    rw [decode, hdecode, Nat.zero_add, Except.error.injEq]
    constructor
    · rintro rfl
      refine ⟨fun hvalid => ?_, encode s, hlongest, rfl⟩
      obtain ⟨t, ht⟩ := isValidUTF8_toByteArray_iff.1 hvalid
      have hok := decode_encode t
      rw [← ht, decode, hdecode] at hok
      cases hok
    · rintro ⟨-, front, hfront, rfl⟩
      exact hlongest.length_unique hfront

theorem encode_injective {s t : List Char} (h : encode s = encode t) : s = t := by
  have hs := decode_encode s
  rw [h, decode_encode, Except.ok.injEq] at hs
  exact hs.symm

end Text.Utf8

namespace Table

/-! ## The first faulty run -/

/-- The run is a numeral, and its value is in the range of 64-bit integers. -/
def IsInt64 (run : List UInt8) : Prop :=
  ∃ i, Decimal.Denotes run i ∧ -2 ^ 63 ≤ i ∧ i ≤ 2 ^ 63 - 1

/-- `run` is the first maximal run that is not a 64-bit integer, and it stands behind `before`. -/
structure FirstFaulty (octets before run : List UInt8) : Prop where
  runAt : RunAt octets before run
  faulty : ¬ IsInt64 run
  first : ∀ before' run', RunAt octets before' run' → before'.length < before.length →
    IsInt64 run'

variable {octets before before' run run' : List UInt8}

/-- **There is one first faulty run**, at one place. -/
theorem FirstFaulty.unique (h : FirstFaulty octets before run)
    (h' : FirstFaulty octets before' run') : before = before' ∧ run = run' := by
  have hle : before'.length ≤ before.length :=
    Nat.le_of_not_lt fun hlt => h.faulty (h'.first before run h.runAt hlt)
  have hge : before.length ≤ before'.length :=
    Nat.le_of_not_lt fun hlt => h'.faulty (h.first before' run' h'.runAt hlt)
  obtain rfl := h.runAt.before_eq_of_length_eq h'.runAt (Nat.le_antisymm hge hle)
  exact ⟨rfl, h.runAt.unique h'.runAt⟩

/-- A faulty run is the first one if the runs of what stands in front of it are 64-bit integers. -/
theorem FirstFaulty.of_runs {runs : List (List UInt8)} (hat : RunAt octets before run)
    (hfaulty : ¬ IsInt64 run) (hruns : Runs before runs) (hall : ∀ r ∈ runs, IsInt64 r) :
    FirstFaulty octets before run := by
  refine ⟨hat, hfaulty, fun before' run' hat' hlt => ?_⟩
  exact hall run' (hruns.mem_iff.2 (hat.maximalRun_of_lt hat' hlt))

theorem isInt64_encode_iff {token : List Char} :
    IsInt64 (Utf8.encode token) ↔ ∃ v, Decimal.int64? token = some v := by
  simp only [IsInt64, ← Decimal.exists_denotes_toInt_iff, Decimal.int64?_eq_some_iff]

/-- The runs of a line that can be read are 64-bit integers. -/
theorem isInt64_of_lineReads {line : List Char} {row : List Int64} (h : LineReads line row) :
    ∀ r ∈ octetRuns (Utf8.encode line), IsInt64 r :=
  exists_octetsRead_iff.1 ⟨row, (octetsRead_encode_iff line row).2 h⟩

/-- **The token that reading a text reports** is its first faulty run. The lines in front of its
line are read and the tokens in front of it too, and these are the runs that stand in front. -/
theorem exists_firstFaulty_of_ofText {text : List Char} {fault : ReadFault}
    (h : ofText text = .error fault) :
    ∃ before token, FirstFaulty (Utf8.encode text) before (Utf8.ofString token) ∧
      fault = .notInteger (before.count terminator + 1) token := by
  obtain ⟨front, line, back, hlines, hfront, hline⟩ := ofText_eq_error_iff.1 h
  obtain ⟨good, token, others, htokens, hgood, hnone, rfl⟩ := readLine_eq_error_iff.1 hline
  have hlines' : octetLines (Utf8.encode text) =
      front.map Utf8.encode ++ Utf8.encode line :: back.map Utf8.encode := by
    rw [octetLines_encode, hlines, List.map_append, List.map_cons]
  have hruns : Runs (Utf8.encode line)
      (good.map Utf8.encode ++ Utf8.encode token :: others.map Utf8.encode) := by
    have hline := runs_octetRuns (Utf8.encode line)
    rw [octetRuns_encode, htokens, List.map_append, List.map_cons] at hline
    exact hline
  obtain ⟨after, htext, hafter, hcount, hnot⟩ := exists_line_append hlines'
  obtain ⟨before, hat, hbefore⟩ := hruns.exists_runAt rfl
  have hstart := endedLines_eq_nil_or (front.map Utf8.encode)
  refine ⟨endedLines (front.map Utf8.encode) ++ before, String.ofList token, ?_, ?_⟩
  · rw [htext, Utf8.ofString, String.toList_ofList]
    refine .of_runs (hat.of_line hstart hafter) ?_
      ((runs_endedLines _).append hbefore (.inl (isBlankOctet_of_getLast? hstart))) ?_
    · rw [isInt64_encode_iff, hnone]
      rintro ⟨v, hv⟩
      cases hv
    · -- what stands in front are the runs of the lines and the tokens that were read
      intro r hr
      rcases List.mem_append.1 hr with hr | hr
      · obtain ⟨octets, hoctets, hr⟩ := List.mem_flatMap.1 hr
        obtain ⟨l, hl, rfl⟩ := List.mem_map.1 hoctets
        obtain ⟨row, hrow⟩ := hfront l hl
        exact isInt64_of_lineReads hrow r hr
      · obtain ⟨t, ht, rfl⟩ := List.mem_map.1 hr
        exact isInt64_encode_iff.2 (hgood t ht)
  · have hzero : before.count terminator = 0 := by
      rw [List.count_eq_zero]
      exact fun hmem => hnot ((hat.before_isPrefix).subset hmem)
    rw [List.count_append, hcount, hzero, List.length_map, Nat.add_zero, Nat.add_comm]

/-! ## The fault that is reported -/

/-- The fault that octets have. The octets that can be read count if they are not UTF-8, and the
first faulty run and the line feeds in front of it if they are. -/
inductive HasFault (octets : List UInt8) : ReadFault → Prop where
  | notUtf8 {front : List UInt8} : ¬ octets.toByteArray.IsValidUTF8 →
      Utf8.LongestReadable octets front → HasFault octets (.notUtf8 front.length)
  | notInteger {before : List UInt8} {token : String} : octets.toByteArray.IsValidUTF8 →
      FirstFaulty octets before (Utf8.ofString token) →
      HasFault octets (.notInteger (before.count terminator + 1) token)

theorem HasFault.unique {fault fault' : ReadFault} (h : HasFault octets fault)
    (h' : HasFault octets fault') : fault = fault' := by
  cases h with
  | notUtf8 hinvalid hfront =>
    cases h' with
    | notUtf8 _ hfront' => rw [hfront.length_unique hfront']
    | notInteger hvalid _ => exact absurd hvalid hinvalid
  | notInteger hvalid hfirst =>
    cases h' with
    | notUtf8 hinvalid _ => exact absurd hvalid hinvalid
    | notInteger _ hfirst' =>
      obtain ⟨rfl, htoken⟩ := hfirst.unique hfirst'
      rw [String.toList_inj.1 (Utf8.encode_injective htoken)]

/-- Octets with a fault are no table. -/
theorem HasFault.read_ne_ok {fault : ReadFault} (h : HasFault octets fault) (t : Table) :
    read octets ≠ .ok t := by
  intro ht
  obtain ⟨hvalid, hruns⟩ := (exists_read_eq_ok_iff octets).1 ⟨t, ht⟩
  cases h with
  | notUtf8 hinvalid _ => exact hinvalid hvalid
  | notInteger _ hfirst => exact hfirst.faulty (hruns _ (exists_runAt_iff.1 ⟨_, hfirst.runAt⟩))

/-- A fault that is reported is one that the octets have. -/
theorem hasFault_of_read {fault : ReadFault} (h : read octets = .error fault) :
    HasFault octets fault := by
  unfold read at h
  rcases hdecode : Utf8.decode octets with offset | text
  · rw [hdecode] at h
    cases h
    obtain ⟨hinvalid, front, hfront, rfl⟩ := Utf8.decode_eq_error_iff.1 hdecode
    exact .notUtf8 hinvalid hfront
  · rw [hdecode] at h
    obtain rfl := Utf8.eq_encode_of_decode hdecode
    obtain ⟨before, token, hfirst, rfl⟩ := exists_firstFaulty_of_ofText h
    exact .notInteger (Utf8.isValidUTF8_toByteArray_iff.2 ⟨text, rfl⟩) hfirst

/-- **The fault that is reported** is the one that the octets have. Octets that are not UTF-8 are
reported with the length of the longest octets in front that are, whatever tokens these hold; other
ones with the first maximal run that is not a numeral in the range of 64-bit integers, as it is
written, and with a line number that is one more than the line feeds in front of it. -/
theorem read_eq_error_iff (octets : List UInt8) (fault : ReadFault) :
    read octets = .error fault ↔ HasFault octets fault := by
  constructor
  · exact hasFault_of_read
  · intro h
    rcases hread : read octets with fault' | t
    · rw [(hasFault_of_read hread).unique h]
    · exact absurd hread (h.read_ne_ok t)

/-- Behind a faulty token, the first two of the three octets of a character: their place is what is
reported. Without them it is the token, and the line in front of it that is blank counts. -/
theorem read_eq_error_iff_cut :
    let text := Utf8.ofString "1\r\n\n 2 -x 9223372036854775808\n"
    HasFault (text ++ [0xe2, 0x82]) (.notUtf8 text.length) ∧
      HasFault text (.notInteger 3 "-x") := by
  intro text
  refine ⟨(read_eq_error_iff _ _).1 ?_, (read_eq_error_iff _ _).1 ?_⟩
  · decide +kernel
  · decide +kernel

end Table

end PartyInputs
